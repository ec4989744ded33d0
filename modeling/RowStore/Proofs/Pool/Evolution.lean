import RowStore.Proofs.Codec.Frame
import RowStore.Proofs.Pool.Requests

/-!
# What becomes of pages in memory

A page in memory has the id, the schema and the size that it had when it was read, whatever is done to its rows. A page
that is resident was so before, or was read from the file that is registered for its table. What is good of every page
that is read, and stays so when allowed rows are stored, is good of every page in memory.
-/

namespace RowStore

/-! ## Pages -/

namespace Page

/-- A page of a table file, with this number. -/
structure Of (page : Page) (file : TableFile) (number : UInt32) : Prop where
  id_eq : page.id = file.pageId number
  schema_eq : page.schema = file.schema
  size_eq : page.size = file.pageSize

/-- The second page has the id, the schema and the size of the first, whatever rows it has. -/
structure Becomes (page page' : Page) : Prop where
  id_eq : page'.id = page.id
  schema_eq : page'.schema = page.schema
  size_eq : page'.size = page.size

/-- What is good of every page that is read, and of a page whose rows are removed or joined by allowed ones. -/
structure Lasting (good : Page → Prop) (allowed : Row → Prop) : Prop where
  decode : ∀ {id : PageId} {schema : Schema} {bytes : Bytes} {page : Page},
    Page.decode id schema bytes = .ok page → good page
  insert : ∀ {page page' : Page} {row : Row} {rowId : RowId}, good page → allowed row →
    page.insert row = .ok (page', rowId) → good page'
  delete : ∀ {page page' : Page} {row : Row}, good page → page.delete row = .ok page' → good page'
  markDirty : ∀ {page : Page} (txn : Option TxnId), good page → good (page.markDirty txn)

variable {page page' page'' : Page} {file : TableFile} {number : UInt32}

theorem Becomes.refl (page : Page) : page.Becomes page := ⟨rfl, rfl, rfl⟩

theorem Becomes.trans (h : page.Becomes page') (h' : page'.Becomes page'') : page.Becomes page'' :=
  ⟨h'.id_eq.trans h.id_eq, h'.schema_eq.trans h.schema_eq, h'.size_eq.trans h.size_eq⟩

theorem Of.becomes (h : page.Of file number) (h' : page.Becomes page') : page'.Of file number :=
  ⟨h'.id_eq.trans h.id_eq, h'.schema_eq.trans h.schema_eq, h'.size_eq.trans h.size_eq⟩

theorem becomes_markDirty (page : Page) (txn : Option TxnId) : page.Becomes (page.markDirty txn) := ⟨rfl, rfl, rfl⟩

theorem becomes_insert {row : Row} {rowId : RowId} (h : page.insert row = .ok (page', rowId)) : page.Becomes page' := by
  obtain ⟨-, index, -, -, rfl⟩ := insert_eq_ok h
  exact ⟨rfl, rfl, rfl⟩

theorem becomes_delete {row : Row} (h : page.delete row = .ok page') : page.Becomes page' := by
  obtain ⟨rowId, -, -, -, rfl⟩ := delete_eq_ok h
  exact ⟨rfl, rfl, rfl⟩

theorem lasting_true : Lasting (fun _ => True) (fun _ => True) where
  decode _ := trivial
  insert _ _ _ := trivial
  delete _ _ := trivial
  markDirty _ _ := trivial

end Page

theorem TableFile.width_of_pageRange {file : TableFile} {number : UInt32} {first last : Nat}
    (h : file.pageRange number = .ok (first, last)) : last = first + file.pageSize := by
  unfold pageRange at h
  split at h
  · cases h
  · split at h
    · cases h
      rfl
    · cases h

theorem TableFile.page_of_readPage {file : TableFile} {number : UInt32} {page : Page} {before after : Store}
    (h : file.readPage number before = .ok page after) :
    page.Of file number ∧ ∃ bytes, Page.decode (file.pageId number) file.schema bytes = .ok page := by
  obtain ⟨bytes, store₁, -, h⟩ := Action.of_bind_ok h
  obtain ⟨part, store₂, part_eq, h⟩ := Action.of_bind_ok h
  obtain ⟨-, store₃, -, h⟩ := Action.of_bind_ok h
  have decode_eq := (Action.of_attempt_ok h).1
  obtain ⟨id_eq, schema_eq, size_eq, -⟩ := Page.decode_eq_ok decode_eq
  refine ⟨⟨id_eq, schema_eq, size_eq.trans ?_⟩, part, decode_eq⟩
  have range_eq := (Action.of_attempt_ok part_eq).1
  unfold pageBytes at range_eq
  split at range_eq
  · cases range_eq
  · next first last last_eq =>
    split at range_eq
    · cases range_eq
    · next enough =>
      cases range_eq
      have width_eq := width_of_pageRange last_eq
      rw [Bytes.length_take, Bytes.length_drop, Nat.min_eq_left]
      omega

/-! ## Stores -/

/-- Between the two stores pools did their work, and nothing was registered or forgotten. -/
structure Store.Evolves (good : Page → Prop) (before after : Store) : Prop where
  catalog_eq : after.catalog = before.catalog
  old : ∀ (frame : FrameId) (page : Page), before.frames[frame.index]? = some page →
    ∃ page', after.frames[frame.index]? = some page' ∧ page.Becomes page' ∧ (good page → good page')
  new : ∀ (frame : FrameId) (page : Page), after.frames[frame.index]? = some page → before.frames.size ≤ frame.index →
    good page
  resident : ∀ (pool : PoolId) (id : PageId) (frame : FrameId), pool.Resident id frame after →
    pool.Resident id frame before ∨
      ∃ file page, before.catalog.file id.table = .ok file ∧ after.frames[frame.index]? = some page ∧
        page.Of file id.number

variable {good : Page → Prop} {allowed : Row → Prop} {before middle after store : Store} {pool : PoolId} {id : PageId}

namespace Store.Evolves

theorem ofFrames (catalog_eq : after.catalog = before.catalog) (frames_eq : after.frames = before.frames)
    (resident : ∀ (pool : PoolId) (id : PageId) (frame : FrameId), pool.Resident id frame after →
      pool.Resident id frame before) : before.Evolves good after where
  catalog_eq := catalog_eq
  old frame page page_eq := ⟨page, frames_eq ▸ page_eq, .refl page, id⟩
  new frame page page_eq le := by
    rw [frames_eq] at page_eq
    exact absurd (Array.getElem?_eq_some_iff.mp page_eq).1 (Nat.not_lt_of_le le)
  resident pool id frame here := .inl (resident pool id frame here)

theorem ofDisk (catalog_eq : after.catalog = before.catalog) (frames_eq : after.frames = before.frames)
    (pools_eq : after.pools = before.pools) : before.Evolves good after :=
  ofFrames catalog_eq frames_eq fun _ _ _ here => here.congr pools_eq.symm

theorem refl (store : Store) : store.Evolves good store := ofDisk rfl rfl rfl

theorem trans (h : before.Evolves good middle) (h' : middle.Evolves good after) : before.Evolves good after where
  catalog_eq := h'.catalog_eq.trans h.catalog_eq
  old frame page page_eq := by
    obtain ⟨page₁, page_eq₁, becomes₁, good₁⟩ := h.old frame page page_eq
    obtain ⟨page₂, page_eq₂, becomes₂, good₂⟩ := h'.old frame page₁ page_eq₁
    exact ⟨page₂, page_eq₂, becomes₁.trans becomes₂, fun was => good₂ (good₁ was)⟩
  new frame page page_eq le := by
    by_cases known : frame.index < middle.frames.size
    · have page_eq₁ := Array.getElem?_eq_getElem known
      obtain ⟨page₂, page_eq₂, -, good₂⟩ := h'.old frame _ page_eq₁
      cases page_eq.symm.trans page_eq₂
      exact good₂ (h.new frame _ page_eq₁ le)
    · exact h'.new frame page page_eq (Nat.le_of_not_lt known)
  resident pool id frame here := by
    rcases h'.resident pool id frame here with here' | ⟨file, page, found, page_eq, is⟩
    · rcases h.resident pool id frame here' with here'' | ⟨file, page, found, page_eq, is⟩
      · exact .inl here''
      · obtain ⟨page', page_eq', becomes, -⟩ := h'.old frame page page_eq
        exact .inr ⟨file, page', found, page_eq', is.becomes becomes⟩
    · rw [h.catalog_eq] at found
      exact .inr ⟨file, page, found, page_eq, is⟩

theorem frames_good (h : before.Evolves good after)
    (was : ∀ (frame : FrameId) (page : Page), before.frames[frame.index]? = some page → good page) (frame : FrameId)
    (page : Page) (page_eq : after.frames[frame.index]? = some page) : good page := by
  by_cases known : frame.index < before.frames.size
  · have old_eq := Array.getElem?_eq_getElem known
    obtain ⟨page', page_eq', -, stays⟩ := h.old frame _ old_eq
    cases page_eq.symm.trans page_eq'
    exact stays (was frame _ old_eq)
  · exact h.new frame page page_eq (Nat.le_of_not_lt known)

theorem setPage {frame : FrameId} {page page' : Page} (page_eq : store.frames[frame.index]? = some page)
    (becomes : page.Becomes page') (lasts : good page → good page') :
    store.Evolves good { store with frames := store.frames.setIfInBounds frame.index page' } where
  catalog_eq := rfl
  old other page₁ page_eq₁ := by
    by_cases same : frame.index = other.index
    · rw [← same] at page_eq₁ ⊢
      cases page_eq.symm.trans page_eq₁
      exact ⟨page', Array.getElem?_setIfInBounds_self_of_lt (Array.getElem?_eq_some_iff.mp page_eq).1, becomes, lasts⟩
    · exact ⟨page₁, (Array.getElem?_setIfInBounds_ne same).trans page_eq₁, .refl page₁, id⟩
  new other page₁ page_eq₁ le := by
    have lt := (Array.getElem?_eq_some_iff.mp page_eq₁).1
    rw [Array.size_setIfInBounds] at lt
    exact absurd lt (Nat.not_lt_of_le le)
  resident pool id other here := .inl (here.congr rfl)

end Store.Evolves

/-! ## Actions -/

/-- Pools that are in order are so after the action, and nothing happened that is no work of a pool. -/
def Action.Steady {α : Type} (good : Page → Prop) (action : Action α) : Prop :=
  ∀ start : Store, Preserves (fun store => store.Tidy ∧ start.Evolves good store) action

namespace Action.Steady

variable {α β : Type} {action : Action α} {next : α → Action β}

theorem of (h : ∀ store : Store, store.Tidy → (action.after store).Tidy ∧ store.Evolves good (action.after store)) :
    action.Steady good := by
  rintro start store ⟨tidy, evolved⟩
  obtain ⟨tidy', evolved'⟩ := h store tidy
  unfold Action.after at tidy' evolved'
  cases run : action store with
  | ok a after =>
    rw [run] at tidy' evolved'
    exact ⟨tidy', evolved.trans evolved'⟩
  | error failure after =>
    rw [run] at tidy' evolved'
    exact ⟨tidy', evolved.trans evolved'⟩

theorem leaves (h : action.Steady good) (tidy : store.Tidy) :
    (action.after store).Tidy ∧ store.Evolves good (action.after store) := by
  have ends := h store store ⟨tidy, .refl store⟩
  unfold Action.after
  cases run : action store <;> rw [run] at ends <;> exact ends

theorem ofLooks (h : action.Looks) : action.Steady good := fun _ => .ofLooks h

theorem pure (a : α) : Steady good (pure a : Action α) := fun _ => Triple.pure fun _ met => met

theorem fail (failure : Failure) : Steady good (fail failure : Action α) := fun _ => Triple.fail fun _ met => met

theorem failThen (failure : Failure) : Steady good (Action.fail failure >>= next) :=
  fun _ => Triple.failThen fun _ met => met

theorem bind (first : action.Steady good) (following : ∀ a, (next a).Steady good) : (action >>= next).Steady good :=
  fun start => (first start).bind fun a => following a start

theorem discard (h : action.Steady good) : (discard action).Steady good := fun start => (h start).discard

theorem ofDisk (h : ∀ store, ∃ disk meters, action.after store = { store with disk, meters }) :
    action.Steady good := .of fun store tidy => by
  obtain ⟨disk, meters, after_eq⟩ := h store
  rw [after_eq]
  exact ⟨tidy.congr rfl (Nat.le_refl _), .ofDisk rfl rfl rfl⟩

end Action.Steady

open RowStore.Action (Steady)

/-! ## Files -/

namespace TableFile

theorem writeBytes_disk (file : TableFile) (number : UInt32) (data : Bytes) (store : Store) :
    ∃ disk meters, (file.writeBytes number data).after store = { store with disk, meters } := by
  unfold Action.after
  rcases file.writeBytes_cases number data store with ⟨failure, failed⟩ | ⟨offset, disk, meters, -, -, run⟩
  · rw [failed]
    exact ⟨_, _, rfl⟩
  · rw [run]
    exact ⟨_, _, rfl⟩

theorem writePage_disk (file : TableFile) (page : Page) (store : Store) :
    ∃ disk meters, (file.writePage page).after store = { store with disk, meters } := by
  unfold Action.after
  rcases file.writePage_cases page store with ⟨failure, failed⟩ | ⟨data, offset, disk, meters, -, -, -, run⟩
  · rw [failed]
    exact ⟨_, _, rfl⟩
  · rw [run]
    exact ⟨_, _, rfl⟩

theorem appendPage_steady (file : TableFile) : file.appendPage.Steady good :=
  .bind (.ofLooks file.pageCount_looks) fun number => .bind (.ofLooks (Action.guard_looks _)) fun data =>
    .bind (.ofDisk (file.writeBytes_disk number data)) fun _ => .pure number

end TableFile

/-! ## Pools -/

namespace PoolId

theorem writeBack_steady (lasting : Page.Lasting good allowed) (id : PageId) (frame : FrameId) :
    (writeBack id frame).Steady good := .of fun store tidy => by
  have tidy' := writeBack_orderly id frame store tidy
  refine ⟨tidy', ?_⟩
  unfold Action.after
  rcases writeBack_cases id frame store with
    ⟨failure, failed⟩ | ⟨page, -, -, run⟩ | ⟨page, file, data, offset, disk, meters, page_eq, -, -, -, -, run⟩
  · rw [failed]
    exact .refl store
  · rw [run]
    exact .refl store
  · rw [run]
    have written : store.Evolves good { store with disk, meters } := .ofDisk rfl rfl rfl
    exact written.trans (.setPage page_eq (page.becomes_markDirty none) (lasting.markDirty none))

theorem writeBackEvicted_steady (lasting : Page.Lasting good allowed) (evicted : Option (PageId × FrameId)) :
    (writeBackEvicted evicted).Steady good := by
  cases evicted with
  | none => exact .pure ()
  | some entry => exact (writeBack_steady lasting entry.1 entry.2).discard

theorem onCache_steady {α : Type} (pool : PoolId)
    {change : Cache PageId FrameId → Except Abort (Cache PageId FrameId × α)}
    (model : Nat → List (PageId × FrameId) → List (PageId × FrameId) × α)
    (follows : ∀ (cache : Cache PageId FrameId) (entries : List (PageId × FrameId)), cache.Holds entries →
      0 < cache.capacity → Cache.Follows cache.capacity (change cache) (model cache.capacity entries))
    (gives : ∀ (capacity : Nat) (entries : List (PageId × FrameId)), (entries.map Prod.fst).Nodup →
      ∃ gone, entries.Perm (gone ++ (model capacity entries).1)) :
    (pool.onCache change).Steady good := .of fun store tidy => by
  unfold Action.after
  rcases onCache_cases tidy pool change model follows with
    ⟨-, run⟩ | ⟨kept, entries, kept', kept_eq, order, run, holds, capacity_eq⟩
  · rw [run]
    exact ⟨tidy, .refl store⟩
  · rw [run]
    obtain ⟨gone, perm⟩ := gives kept.cache.capacity entries order.holds.keys_nodup
    have order' := order.fewer gone perm holds capacity_eq
    refine ⟨tidy.setPool rfl (Nat.le_refl _) order', .ofFrames rfl rfl fun other id frame resident => ?_⟩
    rcases of_resident_setPool kept_eq order' rfl resident with before | ⟨same, mem⟩
    · exact before
    · rw [← same] at kept_eq
      exact (order.resident_iff kept_eq).mpr (perm.mem_iff.mpr (List.mem_append_right _ mem))

theorem get_steady (pool : PoolId) (id : PageId) : (pool.onCache fun cache => cache.get id).Steady good :=
  pool.onCache_steady (fun _ entries => Recency.get entries id) (fun _ _ holds _ => holds.get id)
    fun _ entries nodup => by
      refine ⟨[], ?_⟩
      rw [List.nil_append, Recency.get]
      cases found : Recency.value? entries id with
      | none => exact .refl entries
      | some frame => exact Recency.use_perm nodup found

theorem discardLast_steady (pool : PoolId) : (pool.onCache Cache.discardLast).Steady good :=
  pool.onCache_steady (fun _ entries => Recency.discardLast entries) (fun _ _ holds _ => holds.discardLast)
    fun _ entries _ => ⟨_, Recency.discardLast_perm entries⟩

theorem remove_steady (pool : PoolId) (id : PageId) : (pool.onCache fun cache => cache.remove id).Steady good :=
  pool.onCache_steady (fun _ entries => Recency.remove entries id) (fun _ _ holds _ => holds.remove id)
    fun _ entries _ => ⟨_, (List.filter_append_perm _ entries).symm.trans List.perm_append_comm⟩

theorem load_steady (lasting : Page.Lasting good allowed) (tidy : store.Tidy) {kept : Pool}
    (kept_eq : store.pools[pool.index]? = some kept) (absent : ∀ frame, ¬pool.Resident id frame store) :
    ((pool.load id).after store).Tidy ∧ store.Evolves good ((pool.load id).after store) := by
  unfold load Action.after
  cases found : store.catalog.file id.table with
  | error e =>
    rw [Action.bind_error (Store.lookUp_error found)]
    exact ⟨tidy, .refl store⟩
  | ok file =>
    rw [Action.bind_ok (Store.lookUp_ok found)]
    obtain ⟨meters, ⟨failure, failed⟩ | ⟨page, read_eq⟩⟩ := file.readPage_cases id.number store
    · rw [Action.bind_error failed]
      exact ⟨tidy.congr rfl (Nat.le_refl _), .ofDisk rfl rfl rfl⟩
    · obtain ⟨is, bytes, decode_eq⟩ := TableFile.page_of_readPage read_eq
      obtain ⟨evicted, middle, run, frames_eq, tidy', gives, -, residents⟩ :=
        getOrInsert_cases tidy kept_eq absent page meters
      have page_eq : middle.frames[store.frames.size]? = some page := by
        rw [frames_eq]
        exact Array.getElem?_push_size
      -- The page that was read is all that is new. One that it pushed out is written only afterwards.
      have evolved : store.Evolves good middle := by
        constructor
        case catalog_eq => exact gives.catalog
        case old => exact fun frame page page_eq => ⟨page, gives.frames frame page page_eq, .refl page, fun was => was⟩
        case new =>
          intro frame page' page_eq' le
          rw [frames_eq, Array.getElem?_push] at page_eq'
          split at page_eq'
          · cases page_eq'
            exact lasting.decode decode_eq
          · exact absurd (Array.getElem?_eq_some_iff.mp page_eq').1 (Nat.not_lt_of_le le)
        case resident =>
          intro other id' frame resident
          rcases residents other id' frame resident with before | ⟨rfl, rfl⟩
          · exact .inl before
          · exact .inr ⟨file, page, found, page_eq, is⟩
      rw [Action.bind_ok read_eq, Action.bind_ok (Store.addFrame_eq ..), Action.bind_ok run]
      have written : Steady good (do writeBackEvicted evicted; return ⟨store.frames.size⟩ : Action FrameId) :=
        (writeBackEvicted_steady lasting evicted).bind fun _ => .pure _
      obtain ⟨tidy'', evolved'⟩ := written.leaves tidy'
      exact ⟨tidy'', evolved.trans evolved'⟩

theorem fetch_steady (lasting : Page.Lasting good allowed) (pool : PoolId) (id : PageId) :
    (pool.fetch id).Steady good := .of fun store tidy => by
  have looking : (pool.onCache fun cache => cache.get id).Steady good := get_steady pool id
  have looked := looking.leaves tidy
  unfold fetch Action.after at *
  rcases get_cases tidy pool id with
    ⟨run, -⟩ | ⟨frame, after, run, -⟩ | ⟨middle, kept, run, tidy', -, kept_eq, -, absent⟩
  · rw [Action.bind_error run]
    exact ⟨tidy, .refl store⟩
  · rw [run] at looked
    rw [Action.bind_ok run]
    exact looked
  · rw [run] at looked
    rw [Action.bind_ok run]
    obtain ⟨tidy'', evolved⟩ := load_steady lasting tidy' kept_eq absent
    exact ⟨tidy'', looked.2.trans evolved⟩

theorem alter_steady {α : Type} (lasting : Page.Lasting good allowed) (pool : PoolId) (id : PageId)
    {work : Page → Page × Except Failure α}
    (keeps : ∀ page, page.Becomes (work page).1 ∧ (good page → good (work page).1)) :
    (pool.alter id work).Steady good := by
  refine (fetch_steady lasting pool id).bind fun frame => .bind (.ofLooks pool.pool_looks) fun kept =>
    .bind (.ofLooks (Action.guard_looks _)) fun resident => ?_
  split
  · refine .of fun store tidy => ?_
    unfold Action.after
    cases page_eq : store.frames[frame.index]? with
    | none =>
      rw [Action.bind_error (FrameId.page_error page_eq)]
      exact ⟨tidy, .refl store⟩
    | some page =>
      rw [Action.bind_ok (FrameId.page_eq page_eq)]
      dsimp only
      rw [Action.bind_ok (FrameId.setPage_eq ..)]
      have tidy' : Store.Tidy { store with frames := store.frames.setIfInBounds frame.index (work page).1 } :=
        tidy.congr rfl (by simp)
      have evolved := Store.Evolves.setPage page_eq (keeps page).1 (keeps page).2
      cases (work page).2 <;> exact ⟨tidy', evolved⟩
  · exact .fail _

theorem mutate_steady {α : Type} (lasting : Page.Lasting good allowed) (pool : PoolId) (id : PageId)
    {change : Page → Except Failure (Page × α)}
    (keeps : ∀ page page' a, change page = .ok (page', a) → page.Becomes page' ∧ (good page → good page')) :
    (pool.mutate id change).Steady good := alter_steady lasting pool id fun page => by
  unfold allOrNothing
  cases changed : change page with
  | error failure => exact ⟨.refl page, fun was => was⟩
  | ok result => exact keeps page result.1 result.2 changed

theorem evict_steady (lasting : Page.Lasting good allowed) (pool : PoolId) : pool.evict.Steady good :=
  pool.discardLast_steady.bind fun evicted => (writeBackEvicted_steady lasting evicted).bind fun _ => .pure _

theorem flushPage_steady (lasting : Page.Lasting good allowed) (pool : PoolId) (id : PageId) :
    (pool.flushPage id).Steady good := (pool.get_steady id).bind fun found => by
  cases found with
  | none => exact .pure false
  | some frame => exact writeBack_steady lasting id frame

theorem writeBackAll_steady (lasting : Page.Lasting good allowed) (entries : List (PageId × FrameId)) :
    (writeBackAll entries).Steady good := by
  induction entries with
  | nil => exact .pure ()
  | cons entry entries ih => exact (writeBack_steady lasting entry.1 entry.2).discard.bind fun _ => ih

theorem writeBackOf_steady (lasting : Page.Lasting good allowed) (txn : TxnId) (entries : List (PageId × FrameId)) :
    (writeBackOf txn entries).Steady good := by
  induction entries with
  | nil => exact .pure ()
  | cons entry entries ih =>
    refine .bind (.ofLooks entry.2.page_looks) fun page => ?_
    split
    · exact (writeBack_steady lasting entry.1 entry.2).discard.bind fun _ => ih
    · exact ih

theorem flushAll_steady (lasting : Page.Lasting good allowed) (pool : PoolId) : pool.flushAll.Steady good :=
  .bind (.ofLooks pool.pool_looks) fun _ => .bind (.ofLooks (Action.guard_looks _)) (writeBackAll_steady lasting)

theorem flushTxn_steady (lasting : Page.Lasting good allowed) (pool : PoolId) (txn : TxnId) :
    (pool.flushTxn txn).Steady good :=
  .bind (.ofLooks pool.pool_looks) fun _ => .bind (.ofLooks (Action.guard_looks _)) (writeBackOf_steady lasting txn)

theorem discardPage_steady (pool : PoolId) (id : PageId) : (pool.discardPage id).Steady good :=
  (pool.remove_steady id).bind fun _ => .pure _

end PoolId

/-! ## Rows -/

namespace TableFile

variable {file : TableFile} {txn : TxnId} {row : Row}

theorem insertOn_steady (lasting : Page.Lasting good allowed) (allows : allowed row) :
    (insertOn pool txn id row).Steady good := PoolId.mutate_steady lasting pool id fun page page' stored changed => by
  split at changed
  · next rowId inserted =>
    cases changed
    exact ⟨(Page.becomes_insert inserted).trans (Page.becomes_markDirty _ _),
      fun was => lasting.markDirty _ (lasting.insert was allows inserted)⟩
  · cases changed
    exact ⟨.refl page, fun was => was⟩
  · cases changed

theorem insertAmong_steady (lasting : Page.Lasting good allowed) (allows : allowed row) (left : Nat) (number : UInt32) :
    (file.insertAmong pool txn row left number).Steady good := by
  induction left generalizing number with
  | zero => exact .pure none
  | succ left ih =>
    refine (insertOn_steady lasting allows).bind fun stored => ?_
    cases stored with
    | none => exact ih (number + 1)
    | some stored => exact .pure (some stored)

theorem insertAppending_steady (lasting : Page.Lasting good allowed) (allows : allowed row) (left : Nat) :
    (file.insertAppending pool txn row left).Steady good := by
  induction left with
  | zero => exact .fail _
  | succ left ih =>
    refine file.appendPage_steady.bind fun number => (insertOn_steady lasting allows).bind fun stored => ?_
    cases stored with
    | none => exact ih
    | some stored => exact .pure stored

theorem insert_steady (lasting : Page.Lasting good allowed) (allows : allowed row) :
    (file.insert pool txn row).Steady good := by
  unfold TableFile.insert
  split
  · exact .failThen _
  · refine .bind (.ofLooks file.pageCount_looks) fun count =>
      (insertAmong_steady lasting allows count.toNat 0).bind fun stored => ?_
    cases stored with
    | none => exact insertAppending_steady lasting allows UInt32.size
    | some stored => exact .pure stored

theorem delete_steady (lasting : Page.Lasting good allowed) : (file.delete pool txn row).Steady good := by
  unfold TableFile.delete
  cases row.id with
  | none => exact .fail _
  | some id =>
    dsimp only
    split
    · exact .failThen _
    · refine .bind (.ofLooks file.pageCount_looks) fun count => ?_
      split
      · exact .failThen _
      · refine (PoolId.mutate_steady lasting pool id.page fun page page' a changed => ?_).bind fun _ => .pure _
        split at changed
        · next deleted =>
          cases changed
          exact ⟨(Page.becomes_delete deleted).trans (Page.becomes_markDirty _ _),
            fun was => lasting.markDirty _ (lasting.delete was deleted)⟩
        · cases changed

end TableFile

namespace PoolId

variable {txn : TxnId} {row : Row}

theorem insert_steady (lasting : Page.Lasting good allowed) (allows : allowed row) (table : TableId) :
    (pool.insert txn table row).Steady good :=
  .bind (.ofLooks (Store.lookUp_looks _)) fun _ => TableFile.insert_steady lasting allows

theorem delete_steady (lasting : Page.Lasting good allowed) : (pool.delete txn row).Steady good := by
  unfold PoolId.delete
  cases row.id with
  | none => exact .fail _
  | some id => exact .bind (.ofLooks (Store.lookUp_looks _)) fun _ => (TableFile.delete_steady lasting).discard

end PoolId

end RowStore
