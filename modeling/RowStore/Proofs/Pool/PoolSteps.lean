import RowStore.Proofs.Cache.Refinement
import RowStore.Proofs.Pool.FileSteps

/-!
# Pages in a pool, mirrored

Fetching, flushing and giving up pages change where the pages are, and never what they are.
-/

namespace RowStore

/-! ## Entries in order of use -/

namespace Recency

variable {κ ν : Type}

theorem discardLast_perm (entries : List (κ × ν)) :
    entries.Perm ((discardLast entries).2.toList ++ (discardLast entries).1) := by
  rcases List.eq_nil_or_concat entries with rfl | ⟨before, last, rfl⟩
  · exact .nil
  · rw [List.concat_eq_append, discardLast, List.dropLast_concat, List.getLast?_concat]
    exact List.perm_append_comm

theorem makeRoom_perm (capacity : Nat) (entries : List (κ × ν)) :
    entries.Perm ((makeRoom capacity entries).2.toList ++ (makeRoom capacity entries).1) := by
  unfold makeRoom
  split
  · exact discardLast_perm entries
  · exact .refl _

variable [DecidableEq κ]

theorem forget_absent {entries : List (κ × ν)} {key : κ} (absent : key ∉ entries.map Prod.fst) :
    forget entries key = entries :=
  List.filter_eq_self.mpr fun _ mem => decide_eq_true fun same => absent (same ▸ List.mem_map_of_mem mem)

theorem value?_cons (entry : κ × ν) (entries : List (κ × ν)) (key : κ) :
    value? (entry :: entries) key = if entry.1 = key then some entry.2 else value? entries key := by
  unfold value?
  by_cases same : entry.1 = key
  · rw [if_pos same, List.find?_cons_of_pos (by simpa using same), Option.map_some]
  · rw [if_neg same, List.find?_cons_of_neg (by simpa using same)]

theorem use_perm {entries : List (κ × ν)} {key : κ} {value : ν} (nodup : (entries.map Prod.fst).Nodup)
    (here : value? entries key = some value) : entries.Perm (use entries key value) := by
  induction entries with
  | nil => cases here
  | cons entry entries ih =>
    rw [List.map_cons, List.nodup_cons] at nodup
    rw [value?_cons] at here
    unfold use forget
    split at here
    · next same =>
      cases here
      subst same
      rw [List.filter_cons_of_neg (by simp)]
      rw [show entries.filter (fun other => decide (other.1 ≠ entry.1)) = entries from forget_absent nodup.1]
    · next ne =>
      rw [List.filter_cons_of_pos (by simpa using ne)]
      exact ((ih nodup.2 here).cons entry).trans (.swap ..)

theorem mem_of_value? {entries : List (κ × ν)} {key : κ} {value : ν} (here : value? entries key = some value) :
    (key, value) ∈ entries := by
  obtain ⟨entry, found, rfl⟩ := Option.map_eq_some_iff.mp here
  have key_eq : entry.1 = key := by simpa using List.find?_some found
  exact key_eq ▸ List.mem_of_find?_eq_some found

theorem value?_of_mem {entries : List (κ × ν)} {key : κ} {value : ν} (nodup : (entries.map Prod.fst).Nodup)
    (mem : (key, value) ∈ entries) : value? entries key = some value := by
  induction entries with
  | nil => cases mem
  | cons entry entries ih =>
    rw [List.map_cons, List.nodup_cons] at nodup
    rw [value?_cons]
    rcases List.mem_cons.mp mem with rfl | mem
    · rw [if_pos rfl]
    · have ne : entry.1 ≠ key := fun same => nodup.1 (same ▸ List.mem_map_of_mem mem)
      rw [if_neg ne, ih nodup.2 mem]

theorem not_mem_of_value? {entries : List (κ × ν)} {key : κ} (absent : value? entries key = none) :
    key ∉ entries.map Prod.fst := by
  intro mem
  obtain ⟨entry, entry_mem, key_eq⟩ := List.mem_map.mp mem
  exact value?_eq_none_iff.mp absent entry entry_mem key_eq

end Recency

/-! ## The pages of a pool -/

namespace PoolId

variable {pool : PoolId} {tables : Tables} {capacity : Nat} {saved current : Contents}
  {entries held : List (PageId × FrameId)} {store : Store} {file : TableFile} {id : PageId} {rows : PlainPage}

/-- The pool keeps these pages, the most recently used first, and at most `capacity` of them. -/
def Keeps (pool : PoolId) (capacity : Nat) (entries : List (PageId × FrameId)) (store : Store) : Prop :=
  ∃ kept, store.pools[pool.index]? = some kept ∧ kept.cache.Holds entries ∧ kept.cache.capacity = capacity

/-- The pool keeps the page of this handle under this id. -/
def Resident (pool : PoolId) (id : PageId) (frame : FrameId) (store : Store) : Prop :=
  ∃ kept, store.pools[pool.index]? = some kept ∧ kept.cache.peek id = .ok (some frame)

theorem Keeps.congr (h : pool.Keeps capacity entries store) (store' : Store) (pools_eq : store'.pools = store.pools) :
    pool.Keeps capacity entries store' := by
  unfold Keeps
  rw [pools_eq]
  exact h

theorem Keeps.resident_iff (h : pool.Keeps capacity entries store) (id : PageId) (frame : FrameId) :
    pool.Resident id frame store ↔ (id, frame) ∈ entries := by
  obtain ⟨kept, kept_eq, holds, -⟩ := h
  constructor
  · rintro ⟨kept', kept_eq', peek_eq⟩
    cases kept_eq.symm.trans kept_eq'
    rw [holds.peek_eq] at peek_eq
    exact Recency.mem_of_value? (Except.ok.inj peek_eq)
  · intro mem
    exact ⟨kept, kept_eq, by rw [holds.peek_eq, Recency.value?_of_mem holds.keys_nodup mem]⟩

theorem pool_eq {kept : Pool} (h : store.pools[pool.index]? = some kept) : pool.pool store = .ok kept store := by
  unfold PoolId.pool
  rw [Action.bind_ok (Action.get_apply store), h]
  rfl

theorem onCache_eq {α : Type} {kept : Pool} (kept_eq : store.pools[pool.index]? = some kept)
    {change : Cache PageId FrameId → Except Abort (Cache PageId FrameId × α)} {cache : Cache PageId FrameId} {a : α}
    (change_eq : change kept.cache = .ok (cache, a)) :
    pool.onCache change store =
      .ok a { store with pools := store.pools.setIfInBounds pool.index { kept with cache } } := by
  unfold onCache
  rw [Action.bind_ok (pool_eq kept_eq), Action.bind_ok (Action.guard_apply_ok change_eq store)]
  rfl

theorem onCache_ok {α : Type} (keeps : pool.Keeps capacity entries store)
    (change : Cache PageId FrameId → Except Abort (Cache PageId FrameId × α)) (model : List (PageId × FrameId) × α)
    (follows : ∀ cache : Cache PageId FrameId, cache.Holds entries → cache.capacity = capacity →
      Cache.Follows capacity (change cache) model) :
    ∃ pools, pool.onCache change store = .ok model.2 { store with pools } ∧
      pool.Keeps capacity model.1 { store with pools } := by
  obtain ⟨kept, kept_eq, holds, capacity_eq⟩ := keeps
  obtain ⟨cache, change_eq, holds', capacity_eq'⟩ := follows kept.cache holds capacity_eq
  have lt := (Array.getElem?_eq_some_iff.mp kept_eq).1
  exact ⟨_, onCache_eq kept_eq change_eq, { kept with cache }, Array.getElem?_setIfInBounds_self_of_lt lt, holds',
    capacity_eq'⟩

/-! ## Writing back -/

theorem writeBack_clean {frame : FrameId} (clean : store.IsClean frame) (id : PageId) :
    writeBack id frame store = .ok false store := by
  obtain ⟨page, frame_eq, clean⟩ := clean
  unfold writeBack
  rw [Action.bind_ok (FrameId.page_eq frame_eq), if_neg (by simp [Page.isDirty, clean])]
  rfl

theorem writeBack_dirty {frame : FrameId} {page : Page} (frame_eq : store.frames[frame.index]? = some page)
    (dirty : page.isDirty = true) (id : PageId) :
    writeBack id frame store = (do
      let file ← Store.lookUp fun catalog => catalog.file id.table
      file.writePage page
      frame.setPage (page.markDirty none)
      return true : Action Bool) store := by
  unfold writeBack
  rw [Action.bind_ok (FrameId.page_eq frame_eq)]
  simp only [dirty, ite_true]

theorem writeBack_marked (h : Mirrors tables saved current held store) {frame : FrameId} (mem : (id, frame) ∈ held)
    (file_mem : file ∈ tables.files) (table_eq : file.id = id.table) (here : current.page? id = some rows)
    {txn : TxnId} (frame_eq : store.frames[frame.index]? =
      some ((file.page id.number.toNat rows).markDirty (some txn))) :
    ∃ disk meters, writeBack id frame store = .ok true
        { store with disk, meters, frames :=
            store.frames.setIfInBounds frame.index ((file.page id.number.toNat rows).markDirty none) } ∧
      Mirrors tables (saved.setPage id rows) current held
        { store with disk, meters, frames :=
            store.frames.setIfInBounds frame.index ((file.page id.number.toNat rows).markDirty none) } := by
  obtain ⟨before, before_eq⟩ := h.saved_of_current here
  have stores := h.current_sound file file_mem id.number.toNat rows (by rw [table_eq]; exact here)
  have found : store.catalog.file id.table = .ok file := by
    rw [h.catalog_eq, ← table_eq, tables.among_eq file_mem]
  obtain ⟨disk, meters, write_eq, paths, disk_eq⟩ := h.writePage_ok file_mem table_eq here (some txn)
  refine ⟨disk, meters, ?_, h.change mem file_mem table_eq (Contents.sameBut_setPage ..) (Contents.sameBut_refl ..)
    (h.saved_sound.setPage file_mem table_eq stores) h.current_sound paths disk_eq here none
    (fun _ => Contents.page?_setPage_self before_eq rows) meters⟩
  rw [writeBack_dirty frame_eq rfl, Action.bind_ok (Store.lookUp_ok found), Action.bind_ok write_eq,
    Action.bind_ok (FrameId.setPage_eq ..)]
  rfl

theorem writeBack_ok (h : Mirrors tables saved current held store) {entry : PageId × FrameId} (mem : entry ∈ held) :
    ∃ written saved' store', writeBack entry.1 entry.2 store = .ok written store' ∧
      Mirrors tables saved' current held store' ∧ store'.pools = store.pools ∧ store'.IsClean entry.2 ∧
      ∀ other, store.IsClean other → store'.IsClean other := by
  obtain ⟨id, frame⟩ := entry
  obtain ⟨file, file_mem, table_eq, rows, mark, here, frame_eq, -⟩ := h.entries _ mem
  cases mark with
  | none =>
    have clean : store.IsClean frame := ⟨_, frame_eq, rfl⟩
    exact ⟨false, saved, store, writeBack_clean clean id, h, rfl, clean, fun _ clean => clean⟩
  | some txn =>
    obtain ⟨disk, meters, write_eq, mirrors⟩ := writeBack_marked h mem file_mem table_eq here frame_eq
    have lt := (Array.getElem?_eq_some_iff.mp frame_eq).1
    refine ⟨true, _, _, write_eq, mirrors, rfl, ⟨_, Array.getElem?_setIfInBounds_self_of_lt lt, rfl⟩, ?_⟩
    rintro other ⟨page, other_eq, clean⟩
    by_cases same : frame.index = other.index
    · exact ⟨_, by rw [← same]; exact Array.getElem?_setIfInBounds_self_of_lt lt, rfl⟩
    · exact ⟨page, (Array.getElem?_setIfInBounds_ne same).trans other_eq, clean⟩

theorem writeBackEvicted_ok {evicted : Option (PageId × FrameId)}
    (h : Mirrors tables saved current (evicted.toList ++ held) store) :
    ∃ saved' store', writeBackEvicted evicted store = .ok () store' ∧ Mirrors tables saved' current held store' ∧
      store'.pools = store.pools ∧ ∀ other, store.IsClean other → store'.IsClean other := by
  cases evicted with
  | none => exact ⟨saved, store, rfl, h, rfl, fun _ clean => clean⟩
  | some entry =>
    obtain ⟨written, saved', store', write_eq, mirrors, pools_eq, clean, still⟩ :=
      writeBack_ok h (List.mem_cons_self (a := entry))
    exact ⟨saved', store', Action.discard_ok write_eq, mirrors.release clean, pools_eq, still⟩

end PoolId

end RowStore
