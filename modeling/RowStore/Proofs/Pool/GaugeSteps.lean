import RowStore.Proofs.Pool.Gauges
import RowStore.Proofs.Pool.Settled

/-!
# Free slots while pages move

Fetching, flushing and giving up pages leave all files as long as they are. As long as nothing fails they leave every
page its free slots too, whether it is in memory or not. Where a page that is given up cannot be written, its file's
page takes its place.
-/

namespace RowStore

/-! ## Work on a page -/

namespace Page

variable {page page' kept : Page} {file : TableFile} {number : UInt32} {marks : Prop} {row : Row}

/-- The second page is the first, or the first with other rows of its schema in its slots, and where it marks its
changes with a mark. -/
def Altered (page page' : Page) (marks : Prop) : Prop :=
  page' = page ∨ page.Becomes page' ∧ (marks → page'.dirtier ≠ none) ∧ (page.Framed → page'.Framed) ∧
    (page.Formed → page'.Formed)

theorem Altered.refl (page : Page) : page.Altered page marks := .inl rfl

theorem Over.altered (h : page.Over file number kept marks) (altered : page.Altered page' marks) :
    page'.Over file number kept marks := by
  rcases altered with rfl | ⟨becomes, marked, framed, formed⟩
  · exact h
  · exact ⟨h.is.becomes becomes, framed h.framed, formed h.formed, fun still unmarked => absurd unmarked (marked still)⟩

theorem altered_insert (made : row.Made) {rowId : RowId} (h : page.insert row = .ok (page', rowId)) (txn : TxnId) :
    page.Altered (page'.markDirty (some txn)) marks := by
  refine .inr ⟨(becomes_insert h).trans (becomes_markDirty _ _), fun _ => nofun, fun framed => ?_, fun formed => ?_⟩
  · obtain ⟨-, index, -, -, rfl⟩ := insert_eq_ok h
    exact (framed.withSlots List.length_set).markDirty _
  · exact lasting_formed.markDirty _ (lasting_formed.insert formed made.conforms h)

theorem altered_delete (h : page.delete row = .ok page') (txn : TxnId) :
    page.Altered (page'.markDirty (some txn)) marks := by
  refine .inr ⟨(becomes_delete h).trans (becomes_markDirty _ _), fun _ => nofun, fun framed => ?_, fun formed => ?_⟩
  · obtain ⟨rowId, -, -, -, rfl⟩ := delete_eq_ok h
    exact (framed.withSlots List.length_set).markDirty _
  · exact lasting_formed.markDirty _ (lasting_formed.delete formed h)

end Page

namespace PoolId

variable {pool : PoolId} {tables : Tables} {capacity : Nat} {lengths : TableId → Nat} {sure : PageId → Prop}
  {free : PageId → Option Nat} {entries : List (PageId × FrameId)} {store : Store} {file : TableFile} {id : PageId}
  {frame : FrameId}

/-- The pool keeps the pages of `entries`, the files have these lengths, and the pages that are sure so many free
slots. -/
structure Gauged (pool : PoolId) (tables : Tables) (capacity : Nat) (lengths : TableId → Nat) (sure : PageId → Prop)
    (free : PageId → Option Nat) (entries : List (PageId × FrameId)) (store : Store) : Prop where
  pos : 0 < capacity
  keeps : pool.Keeps capacity entries store
  gauges : Gauges tables lengths sure free entries store

/-- The files have these lengths and the pages that are sure so many free slots, wherever they are. -/
def Knows (pool : PoolId) (tables : Tables) (capacity : Nat) (lengths : TableId → Nat) (sure : PageId → Prop)
    (free : PageId → Option Nat) (store : Store) : Prop :=
  ∃ entries, pool.Gauged tables capacity lengths sure free entries store

/-- The files have these lengths, whatever free slots the pages have. -/
def Sizes (pool : PoolId) (tables : Tables) (capacity : Nat) (lengths : TableId → Nat) (sure : PageId → Prop)
    (store : Store) : Prop :=
  ∃ free, pool.Knows tables capacity lengths sure free store

theorem Sizes.mono (h : pool.Sizes tables capacity lengths sure store) {sure' : PageId → Prop}
    (less : ∀ id, sure' id → sure id) : pool.Sizes tables capacity lengths sure' store := by
  obtain ⟨free, entries, pos, keeps, gauges⟩ := h
  exact ⟨free, entries, pos, keeps, gauges.mono less⟩

namespace Gauged

theorem sizes (h : pool.Gauged tables capacity lengths sure free entries store) :
    pool.Sizes tables capacity lengths sure store := ⟨free, entries, h⟩

/-! ## Steps of the cache -/

theorem settle {evicted : Option (PageId × FrameId)} (pos : 0 < capacity) (keeps : pool.Keeps capacity entries store)
    (gauges : Gauges tables lengths sure free (evicted.toList ++ entries) store) :
    Meets (fun _ => pool.Gauged tables capacity lengths sure free entries) (pool.Sizes tables capacity lengths sure)
      (writeBackEvicted evicted store) := by
  cases evicted with
  | none => exact ⟨pos, keeps, gauges⟩
  | some victim =>
    rcases gauges.writeBack (List.mem_cons_self (a := victim)) with
      ⟨failure, failed⟩ | ⟨written, store', run, gauges', pools_eq, clean⟩
    · obtain ⟨free', gauges'⟩ := gauges.forget
      have failed' : writeBackEvicted (some victim) store = .error failure store := Action.discard_error failed
      rw [failed']
      exact Gauged.sizes ⟨pos, keeps, gauges'⟩
    · have run' : writeBackEvicted (some victim) store = .ok () store' := Action.discard_ok run
      rw [run']
      exact ⟨pos, keeps.congr _ pools_eq, gauges'.release clean⟩

theorem get_hit (h : pool.Gauged tables capacity lengths sure free entries store)
    (here : Recency.value? entries id = some frame) :
    ∃ store', pool.onCache (fun cache => cache.get id) store = .ok (some frame) store' ∧
      pool.Gauged tables capacity lengths sure free (Recency.use entries id frame) store' := by
  obtain ⟨pools, cache_eq, keeps⟩ := onCache_ok h.keeps (fun cache => cache.get id)
    (Recency.get entries id) fun cache holds capacity_eq => capacity_eq ▸ holds.get id
  rw [Recency.get, here] at cache_eq keeps
  exact ⟨_, cache_eq, h.pos, keeps, (h.gauges.perm (Recency.use_perm h.gauges.ids here)).congr _ rfl rfl rfl⟩

theorem get_miss (h : pool.Gauged tables capacity lengths sure free entries store)
    (absent : Recency.value? entries id = none) :
    ∃ store', pool.onCache (fun cache => cache.get id) store = .ok none store' ∧
      pool.Gauged tables capacity lengths sure free entries store' := by
  obtain ⟨pools, cache_eq, keeps⟩ := onCache_ok h.keeps (fun cache => cache.get id)
    (Recency.get entries id) fun cache holds capacity_eq => capacity_eq ▸ holds.get id
  rw [Recency.get, absent] at cache_eq keeps
  exact ⟨_, cache_eq, h.pos, keeps, h.gauges.congr _ rfl rfl rfl⟩

theorem load (h : pool.Gauged tables capacity lengths sure free entries store)
    (absent : Recency.value? entries id = none) :
    Meets (fun frame after => ∃ entries', pool.Gauged tables capacity lengths sure free ((id, frame) :: entries') after)
      (pool.Sizes tables capacity lengths sure) (pool.load id store) := by
  have unkept := Recency.not_mem_of_value? absent
  unfold PoolId.load
  cases found : store.catalog.file id.table with
  | error e =>
    rw [Action.bind_error (Store.lookUp_error found)]
    exact h.sizes
  | ok file =>
    rw [Action.bind_ok (Store.lookUp_ok found)]
    rw [h.gauges.catalog_eq] at found
    obtain ⟨mem, table_eq⟩ := TableFile.mem_of_among found
    obtain ⟨meters, read_eq⟩ := file.readPage_ends id.number store
    cases read : file.pageOn store.disk id.number with
    | error failure =>
      rw [read] at read_eq
      rw [Action.bind_error read_eq]
      exact Gauged.sizes ⟨h.pos, h.keeps.congr _ rfl, h.gauges.congr _ rfl rfl rfl⟩
    | ok page =>
      rw [read] at read_eq
      have gauges₁ := h.gauges.keep mem table_eq read unkept meters
      have keeps₁ := h.keeps.congr { store with meters, frames := store.frames.push page } rfl
      obtain ⟨pools, cache_eq, keeps₂⟩ := onCache_ok keeps₁
        (fun cache => cache.getOrInsert id ⟨store.frames.size⟩)
        (Recency.getOrInsert capacity entries id ⟨store.frames.size⟩)
        fun cache holds capacity_eq => capacity_eq ▸ holds.getOrInsert (capacity_eq ▸ h.pos) id _
      rw [Recency.getOrInsert, absent] at cache_eq keeps₂
      have moved : ((id, (⟨store.frames.size⟩ : FrameId)) :: entries).Perm
          ((Recency.makeRoom capacity entries).2.toList ++
            (id, ⟨store.frames.size⟩) :: (Recency.makeRoom capacity entries).1) :=
        ((Recency.makeRoom_perm capacity entries).cons _).trans List.perm_middle.symm
      have gauges₂ := (gauges₁.perm moved).congr
        { store with meters, frames := store.frames.push page, pools } rfl rfl rfl
      have settled := settle h.pos keeps₂ gauges₂
      rw [Action.bind_ok read_eq, Action.bind_ok (Store.addFrame_eq ..), Action.bind_ok cache_eq]
      exact settled.bind fun _ _ gauged => ⟨_, gauged⟩

end Gauged

/-! ## Fetching -/

theorem fetch_knows (id : PageId) :
    Triple (pool.Knows tables capacity lengths sure free) (pool.fetch id)
      (fun frame after => ∃ entries, pool.Gauged tables capacity lengths sure free ((id, frame) :: entries) after)
      (pool.Sizes tables capacity lengths sure) := by
  rintro store ⟨entries, h⟩
  unfold fetch
  cases found : Recency.value? entries id with
  | some frame =>
    obtain ⟨store', run, gauged⟩ := h.get_hit found
    rw [Action.bind_ok run]
    exact ⟨_, gauged⟩
  | none =>
    obtain ⟨store', run, gauged⟩ := h.get_miss found
    rw [Action.bind_ok run]
    exact gauged.load found

theorem fetch_sizes (id : PageId) : Preserves (pool.Sizes tables capacity lengths sure) (pool.fetch id) := by
  rintro store ⟨free, knows⟩
  have fetched := fetch_knows id store knows
  cases run : pool.fetch id store with
  | ok frame after =>
    rw [run] at fetched
    obtain ⟨entries, gauged⟩ := fetched
    exact gauged.sizes
  | error failure after =>
    rw [run] at fetched
    exact fetched

/-! ## Working on a page -/

theorem Gauged.alter_eq {α : Type} {middle : Store} {page : Page}
    (h : pool.Gauged tables capacity lengths sure free ((id, frame) :: entries) middle)
    (run : pool.fetch id store = .ok frame middle) (page_eq : middle.frames[frame.index]? = some page)
    (work : Page → Page × Except Failure α) :
    pool.alter id work store = Action.attempt (work page).2
      { middle with frames := middle.frames.setIfInBounds frame.index (work page).1 } := by
  obtain ⟨keeper, keeper_eq, holds, -⟩ := h.keeps
  have peek_eq := holds.peek_eq id
  rw [Recency.value?_cons, if_pos rfl] at peek_eq
  unfold alter
  rw [Action.bind_ok run, Action.bind_ok (pool_eq keeper_eq), Action.bind_ok (Action.guard_apply_ok peek_eq middle)]
  simp only [ite_true]
  rw [Action.bind_ok (FrameId.page_eq page_eq)]
  exact Action.bind_ok (FrameId.setPage_eq ..)

theorem alter_knows {α : Type} (knows : pool.Knows tables capacity lengths sure free store) (id : PageId)
    (work : Page → Page × Except Failure α) :
    (∃ failure after, pool.alter id work store = .error failure after ∧ pool.Sizes tables capacity lengths sure after) ∨
      ∃ file ∈ tables.files, file.id = id.table ∧ ∃ page after, page.Of file id.number ∧
        (sure id → free id = some page.freeCount) ∧ pool.alter id work store = Action.attempt (work page).2 after ∧
        (page.Altered (work page).1 (sure id) → ∀ free' : PageId → Option Nat,
          Gauges.Recounts sure free free' id (work page).1.freeCount →
            pool.Knows tables capacity lengths sure free' after) := by
  have fetched := fetch_knows id store knows
  cases run : pool.fetch id store with
  | error failure after =>
    rw [run] at fetched
    exact .inl ⟨failure, after, Action.bind_error run, fetched⟩
  | ok frame middle =>
    rw [run] at fetched
    obtain ⟨entries, gauged⟩ := fetched
    obtain ⟨file, mem, table_eq, page, kept, page_eq, free_eq, read, above⟩ :=
      gauged.gauges.entries _ List.mem_cons_self
    refine .inr ⟨file, mem, table_eq, page,
      { middle with frames := middle.frames.setIfInBounds frame.index (work page).1 }, above.is, free_eq, ?_, ?_⟩
    · exact gauged.alter_eq run page_eq work
    · intro altered free' recounts
      exact ⟨_, gauged.pos, gauged.keeps.congr _ rfl,
        gauged.gauges.setPage List.mem_cons_self mem table_eq read (above.altered altered) recounts⟩

theorem alter_sizes {α : Type} (id : PageId) {work : Page → Page × Except Failure α}
    (altered : ∀ page : Page, page.Altered (work page).1 (sure id)) :
    Preserves (pool.Sizes tables capacity lengths sure) (pool.alter id work) := by
  rintro store ⟨free, knows⟩
  rcases alter_knows knows id work with
    ⟨failure, after, failed, sizes⟩ | ⟨file, -, -, page, after, -, -, run, knows'⟩
  · rw [failed]
    exact sizes
  · have sizes : pool.Sizes tables capacity lengths sure after := ⟨_, knows' (altered page) _ (.update _)⟩
    rw [run]
    cases (work page).2 <;> exact sizes

theorem mutate_sizes {α : Type} (id : PageId) {change : Page → Except Failure (Page × α)}
    (altered : ∀ page page' a, change page = .ok (page', a) → page.Altered page' (sure id)) :
    Preserves (pool.Sizes tables capacity lengths sure) (pool.mutate id change) := alter_sizes id fun page => by
  unfold allOrNothing
  cases changed : change page with
  | error failure => exact .refl page
  | ok result => exact altered page result.1 result.2 changed

/-! ## Flushing and giving up -/

theorem evict_sizes : Preserves (pool.Sizes tables capacity lengths sure) pool.evict := by
  rintro store ⟨free, entries, h⟩
  obtain ⟨pools, cache_eq, keeps⟩ := onCache_ok h.keeps Cache.discardLast (Recency.discardLast entries)
    fun cache holds capacity_eq => capacity_eq ▸ holds.discardLast
  have gauges := (h.gauges.perm (Recency.discardLast_perm entries)).congr { store with pools } rfl rfl rfl
  have settled := Gauged.settle h.pos keeps gauges
  unfold evict
  rw [Action.bind_ok cache_eq]
  exact settled.bind fun _ _ gauged => gauged.sizes

theorem writeBack_gauged (mem : (id, frame) ∈ entries) :
    Preserves (pool.Gauged tables capacity lengths sure free entries) (writeBack id frame) := by
  intro store h
  rcases h.gauges.writeBack mem with ⟨failure, failed⟩ | ⟨written, store', run, gauges, pools_eq, -⟩
  · rw [failed]
    exact h
  · rw [run]
    exact ⟨h.pos, h.keeps.congr _ pools_eq, gauges⟩

theorem writeBackAll_gauged {list : List (PageId × FrameId)} (sub : list ⊆ entries) :
    Preserves (pool.Gauged tables capacity lengths sure free entries) (writeBackAll list) := by
  induction list with
  | nil => exact .pure fun _ h => h
  | cons entry list ih =>
    obtain ⟨mem, sub⟩ := List.cons_subset.mp sub
    exact (writeBack_gauged mem).discard.bind fun _ => ih sub

theorem writeBackOf_gauged (txn : TxnId) {list : List (PageId × FrameId)} (sub : list ⊆ entries) :
    Preserves (pool.Gauged tables capacity lengths sure free entries) (writeBackOf txn list) := by
  induction list with
  | nil => exact .pure fun _ h => h
  | cons entry list ih =>
    obtain ⟨mem, sub⟩ := List.cons_subset.mp sub
    refine Triple.bind (.ofLooks entry.2.page_looks) fun page => ?_
    split
    · exact (writeBack_gauged mem).discard.bind fun _ => ih sub
    · exact ih sub

theorem Gauged.meets_sizes {α : Type} {action : Action α}
    (kept : Preserves (pool.Gauged tables capacity lengths sure free entries) action)
    (h : pool.Gauged tables capacity lengths sure free entries store) :
    Meets (fun _ => pool.Sizes tables capacity lengths sure) (pool.Sizes tables capacity lengths sure)
      (action store) := by
  have met := kept store h
  cases run : action store <;> rw [run] at met <;> exact Gauged.sizes met

theorem flushPage_sizes (id : PageId) : Preserves (pool.Sizes tables capacity lengths sure) (pool.flushPage id) := by
  rintro store ⟨free, entries, h⟩
  unfold flushPage
  cases found : Recency.value? entries id with
  | some frame =>
    obtain ⟨store', run, gauged⟩ := h.get_hit found
    rw [Action.bind_ok run]
    exact gauged.meets_sizes (writeBack_gauged List.mem_cons_self)
  | none =>
    obtain ⟨store', run, gauged⟩ := h.get_miss found
    rw [Action.bind_ok run]
    exact gauged.sizes

theorem flushAll_sizes : Preserves (pool.Sizes tables capacity lengths sure) pool.flushAll := by
  rintro store ⟨free, entries, h⟩
  obtain ⟨kept, kept_eq, holds, -⟩ := h.keeps
  unfold flushAll
  rw [Action.bind_ok (pool_eq kept_eq), Action.bind_ok (Action.guard_apply_ok holds.entries_eq store)]
  exact h.meets_sizes (writeBackAll_gauged (List.Subset.refl entries))

theorem flushTxn_sizes (txn : TxnId) : Preserves (pool.Sizes tables capacity lengths sure) (pool.flushTxn txn) := by
  rintro store ⟨free, entries, h⟩
  obtain ⟨kept, kept_eq, holds, -⟩ := h.keeps
  unfold flushTxn
  rw [Action.bind_ok (pool_eq kept_eq), Action.bind_ok (Action.guard_apply_ok holds.entries_eq store)]
  exact h.meets_sizes (writeBackOf_gauged txn (List.Subset.refl entries))

theorem discardPage_sizes (id : PageId) :
    Preserves (pool.Sizes tables capacity lengths sure) (pool.discardPage id) := by
  rintro store ⟨free, entries, h⟩
  obtain ⟨pools, cache_eq, keeps⟩ := onCache_ok h.keeps (fun cache => cache.remove id) (Recency.remove entries id)
    fun cache holds capacity_eq => capacity_eq ▸ holds.remove id
  unfold discardPage
  rw [Action.bind_ok cache_eq]
  cases found : Recency.value? entries id with
  | none =>
    have absent := Recency.not_mem_of_value? found
    rw [Recency.remove, Recency.forget_absent absent] at keeps
    exact Gauged.sizes ⟨h.pos, keeps, h.gauges.congr _ rfl rfl rfl⟩
  | some frame =>
    obtain ⟨free', gauges⟩ := (h.gauges.perm (Recency.use_perm h.gauges.ids found)).forget
    exact Gauged.sizes ⟨h.pos, keeps, gauges.congr _ rfl rfl rfl⟩

end PoolId

end RowStore
