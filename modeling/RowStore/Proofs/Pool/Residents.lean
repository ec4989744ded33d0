import RowStore.Proofs.Pool.PoolSteps

/-!
# Requests for pages

A request for a page of a registered table finds it as it is now, whether it was in memory or not. Flushing and giving
up pages succeed and leave all pages as they are now. Only a page that is discarded goes back to what its file has.
-/

namespace RowStore

def Store.MarkedBy (store : Store) (txn : TxnId) (frame : FrameId) : Prop :=
  ∃ page, store.frames[frame.index]? = some page ∧ page.dirtier = some txn

@[simp] theorem Page.dirtier_markDirty (page : Page) (mark : Option TxnId) : (page.markDirty mark).dirtier = mark := rfl

theorem Store.markedBy_of_cleared {store after : Store} {frame other : FrameId} {page : Page} {txn : TxnId}
    (frame_eq : store.frames[frame.index]? = some page)
    (frames_eq : after.frames = store.frames.setIfInBounds frame.index (page.markDirty none))
    (marked : after.MarkedBy txn other) : store.MarkedBy txn other ∧ other ≠ frame := by
  obtain ⟨page', other_eq, marked⟩ := marked
  rw [frames_eq] at other_eq
  have lt := (Array.getElem?_eq_some_iff.mp frame_eq).1
  have ne : other ≠ frame := by
    rintro rfl
    cases (Array.getElem?_setIfInBounds_self_of_lt lt).symm.trans other_eq
    cases marked
  have index_ne : frame.index ≠ other.index := fun same => ne (congrArg FrameId.mk same.symm)
  exact ⟨⟨page', (Array.getElem?_setIfInBounds_ne index_ne).symm.trans other_eq, marked⟩, ne⟩

namespace PoolId

/-- The pool keeps the pages of `entries`, the files have the pages `saved`, and the pages are `current` now. -/
structure Represents (pool : PoolId) (tables : Tables) (capacity : Nat) (saved current : Contents)
    (entries : List (PageId × FrameId)) (store : Store) : Prop where
  pos : 0 < capacity
  keeps : pool.Keeps capacity entries store
  mirrors : Mirrors tables saved current entries store

variable {pool : PoolId} {tables : Tables} {capacity : Nat} {saved current : Contents}
  {entries : List (PageId × FrameId)} {store : Store} {file : TableFile} {id : PageId} {rows : PlainPage}

namespace Represents

/-! ## Making room -/

theorem settle {kept : List (PageId × FrameId)} {evicted : Option (PageId × FrameId)} (pos : 0 < capacity)
    (keeps : pool.Keeps capacity kept store)
    (mirrors : Mirrors tables saved current (evicted.toList ++ kept) store) :
    ∃ saved' store', writeBackEvicted evicted store = .ok () store' ∧
      pool.Represents tables capacity saved' current kept store' := by
  obtain ⟨saved', store', write_eq, mirrors', pools_eq, -⟩ := writeBackEvicted_ok mirrors
  exact ⟨saved', store', write_eq, pos, keeps.congr _ pools_eq, mirrors'⟩

theorem evict_ok (h : pool.Represents tables capacity saved current entries store) :
    ∃ evicted saved' entries' store', pool.evict store = .ok evicted store' ∧
      pool.Represents tables capacity saved' current entries' store' := by
  obtain ⟨pools, cache_eq, keeps⟩ := onCache_ok h.keeps Cache.discardLast (Recency.discardLast entries)
    fun cache holds capacity_eq => capacity_eq ▸ holds.discardLast
  have mirrors := (h.mirrors.perm (Recency.discardLast_perm entries)).congr
    { store with pools } rfl rfl rfl
  obtain ⟨saved', store', write_eq, represents⟩ := settle h.pos keeps mirrors
  refine ⟨(Recency.discardLast entries).2.map Prod.fst, saved', _, store', ?_, represents⟩
  unfold evict
  rw [Action.bind_ok cache_eq, Action.bind_ok write_eq]
  rfl

/-! ## Fetching -/

theorem entry_of_value? (h : pool.Represents tables capacity saved current entries store) {frame : FrameId}
    (here : Recency.value? entries id = some frame) :
    ∃ file ∈ tables.files, file.id = id.table ∧ ∃ rows, current.page? id = some rows := by
  obtain ⟨file, mem, table_eq, rows, -, page_eq, -⟩ := h.mirrors.entries _ (Recency.mem_of_value? here)
  exact ⟨file, mem, table_eq, rows, page_eq⟩

theorem get_hit (h : pool.Represents tables capacity saved current entries store) {frame : FrameId}
    (here : Recency.value? entries id = some frame) :
    ∃ store', pool.onCache (fun cache => cache.get id) store = .ok (some frame) store' ∧
      pool.Represents tables capacity saved current (Recency.use entries id frame) store' := by
  obtain ⟨pools, cache_eq, keeps⟩ := onCache_ok h.keeps (fun cache => cache.get id)
    (Recency.get entries id) fun cache holds capacity_eq => capacity_eq ▸ holds.get id
  rw [Recency.get, here] at cache_eq keeps
  exact ⟨_, cache_eq, h.pos, keeps, (h.mirrors.perm (Recency.use_perm h.mirrors.ids here)).congr _ rfl rfl rfl⟩

theorem get_miss (h : pool.Represents tables capacity saved current entries store)
    (absent : Recency.value? entries id = none) :
    ∃ store', pool.onCache (fun cache => cache.get id) store = .ok none store' ∧
      pool.Represents tables capacity saved current entries store' := by
  obtain ⟨pools, cache_eq, keeps⟩ := onCache_ok h.keeps (fun cache => cache.get id)
    (Recency.get entries id) fun cache holds capacity_eq => capacity_eq ▸ holds.get id
  rw [Recency.get, absent] at cache_eq keeps
  exact ⟨_, cache_eq, h.pos, keeps, h.mirrors.congr _ rfl rfl rfl⟩

theorem load_ok (h : pool.Represents tables capacity saved current entries store) (mem : file ∈ tables.files)
    (table_eq : file.id = id.table) (here : current.page? id = some rows)
    (absent : Recency.value? entries id = none) :
    ∃ frame saved' entries' store', pool.load id store = .ok frame store' ∧
      pool.Represents tables capacity saved' current ((id, frame) :: entries') store' := by
  have unkept := Recency.not_mem_of_value? absent
  have saved_eq : saved.page? id = some rows := by rw [h.mirrors.others id unkept, here]
  have found : store.catalog.file id.table = .ok file := by
    rw [h.mirrors.catalog_eq, ← table_eq, tables.among_eq mem]
  obtain ⟨meters, read_eq⟩ := h.mirrors.readPage_ok mem table_eq saved_eq
  have mirrors₁ := h.mirrors.keep mem table_eq saved_eq unkept meters
  have keeps₁ := h.keeps.congr
    { store with meters, frames := store.frames.push (file.page id.number.toNat rows) } rfl
  obtain ⟨pools, cache_eq, keeps₂⟩ := onCache_ok keeps₁
    (fun cache => cache.getOrInsert id ⟨store.frames.size⟩)
    (Recency.getOrInsert capacity entries id ⟨store.frames.size⟩)
    fun cache holds capacity_eq => capacity_eq ▸ holds.getOrInsert (capacity_eq ▸ h.pos) id _
  rw [Recency.getOrInsert, absent] at cache_eq keeps₂
  have moved : ((id, (⟨store.frames.size⟩ : FrameId)) :: entries).Perm
      ((Recency.makeRoom capacity entries).2.toList ++
        (id, ⟨store.frames.size⟩) :: (Recency.makeRoom capacity entries).1) :=
    ((Recency.makeRoom_perm capacity entries).cons _).trans List.perm_middle.symm
  have mirrors₂ := (mirrors₁.perm moved).congr
    { store with meters, frames := store.frames.push (file.page id.number.toNat rows), pools } rfl rfl rfl
  obtain ⟨saved', store', write_eq, represents⟩ := settle h.pos keeps₂ mirrors₂
  refine ⟨_, saved', _, store', ?_, represents⟩
  unfold load
  rw [Action.bind_ok (Store.lookUp_ok found), Action.bind_ok read_eq, Action.bind_ok (Store.addFrame_eq ..),
    Action.bind_ok cache_eq]
  exact Action.bind_ok write_eq

theorem fetch_ok (h : pool.Represents tables capacity saved current entries store) (mem : file ∈ tables.files)
    (table_eq : file.id = id.table) (here : current.page? id = some rows) :
    ∃ frame saved' entries' store', pool.fetch id store = .ok frame store' ∧
      pool.Represents tables capacity saved' current ((id, frame) :: entries') store' := by
  unfold fetch
  cases found : Recency.value? entries id with
  | some frame =>
    obtain ⟨store', cache_eq, represents⟩ := h.get_hit found
    exact ⟨frame, saved, _, store', by rw [Action.bind_ok cache_eq]; rfl, represents⟩
  | none =>
    obtain ⟨store₁, cache_eq, represents₁⟩ := h.get_miss found
    obtain ⟨frame, saved', entries', store', load_eq, represents⟩ := represents₁.load_ok mem table_eq here found
    exact ⟨frame, saved', entries', store', by rw [Action.bind_ok cache_eq]; exact load_eq, represents⟩

theorem fetch_unregistered (h : pool.Represents tables capacity saved current entries store) {e : StoreError}
    (unregistered : TableFile.among tables.files id.table = .error e) :
    ∃ store', pool.fetch id store = .error (.refused e) store' ∧
      pool.Represents tables capacity saved current entries store' := by
  have absent : Recency.value? entries id = none := by
    cases found : Recency.value? entries id with
    | none => rfl
    | some frame =>
      obtain ⟨file, mem, table_eq, -⟩ := h.entry_of_value? found
      rw [← table_eq, tables.among_eq mem] at unregistered
      cases unregistered
  obtain ⟨store', cache_eq, represents⟩ := h.get_miss absent
  have missing : store'.catalog.file id.table = .error e := by rw [represents.mirrors.catalog_eq, unregistered]
  refine ⟨store', ?_, represents⟩
  unfold fetch
  rw [Action.bind_ok cache_eq]
  change pool.load id store' = _
  unfold load
  exact Action.bind_error (Store.lookUp_error missing)

theorem fetch_missing (h : pool.Represents tables capacity saved current entries store) (mem : file ∈ tables.files)
    (table_eq : file.id = id.table) (missing : current.page? id = none) :
    ∃ store', pool.fetch id store = .error (file.missing id.number) store' ∧
      pool.Represents tables capacity saved current entries store' := by
  have absent : Recency.value? entries id = none := by
    cases found : Recency.value? entries id with
    | none => rfl
    | some frame =>
      obtain ⟨-, -, -, rows, here⟩ := h.entry_of_value? found
      rw [missing] at here
      cases here
  obtain ⟨store', cache_eq, represents⟩ := h.get_miss absent
  have saved_eq : saved.page? id = none := by
    rw [h.mirrors.others id (Recency.not_mem_of_value? absent), missing]
  have found : store'.catalog.file id.table = .ok file := by
    rw [represents.mirrors.catalog_eq, ← table_eq, tables.among_eq mem]
  refine ⟨store', ?_, represents⟩
  unfold fetch
  rw [Action.bind_ok cache_eq]
  change pool.load id store' = _
  unfold load
  rw [Action.bind_ok (Store.lookUp_ok found)]
  exact Action.bind_error (represents.mirrors.readPage_missing mem table_eq saved_eq)

/-! ## Changing a page -/

theorem fetched (h : pool.Represents tables capacity saved current entries store) (mem : file ∈ tables.files)
    (table_eq : file.id = id.table) (here : current.page? id = some rows) {frame : FrameId}
    (resident : (id, frame) ∈ entries) :
    ∃ mark, store.frames[frame.index]? = some ((file.page id.number.toNat rows).markDirty mark) ∧
      (mark = none → saved.page? id = some rows) := by
  obtain ⟨other, mem', table_eq', rows', mark, here', frame_eq, clean⟩ := h.mirrors.entries _ resident
  cases List.inj_on_of_nodup_map tables.ids mem mem' (table_eq.trans table_eq'.symm)
  cases here.symm.trans here'
  exact ⟨mark, frame_eq, clean⟩

theorem alter_eq {α : Type} (h : pool.Represents tables capacity saved current entries store)
    (mem : file ∈ tables.files) (table_eq : file.id = id.table) (here : current.page? id = some rows)
    (work : Page → Page × Except Failure α) :
    ∃ frame saved' entries' store' mark,
      pool.Represents tables capacity saved' current ((id, frame) :: entries') store' ∧
      store'.frames[frame.index]? = some ((file.page id.number.toNat rows).markDirty mark) ∧
      (mark = none → saved'.page? id = some rows) ∧
      pool.alter id work store = (do
        frame.setPage (work ((file.page id.number.toNat rows).markDirty mark)).1
        Action.attempt (work ((file.page id.number.toNat rows).markDirty mark)).2 : Action α) store' := by
  obtain ⟨frame, saved', entries', store', fetch_eq, represents⟩ := h.fetch_ok mem table_eq here
  obtain ⟨mark, frame_eq, clean⟩ := represents.fetched mem table_eq here List.mem_cons_self
  refine ⟨frame, saved', entries', store', mark, represents, frame_eq, clean, ?_⟩
  obtain ⟨kept, kept_eq, holds, -⟩ := represents.keeps
  have peek_eq := holds.peek_eq id
  rw [Recency.value?_cons, if_pos rfl] at peek_eq
  unfold alter
  rw [Action.bind_ok fetch_eq, Action.bind_ok (pool_eq kept_eq), Action.bind_ok (Action.guard_apply_ok peek_eq store')]
  simp only [ite_true]
  rw [Action.bind_ok (FrameId.page_eq frame_eq)]

theorem mutate_ok {α : Type} (h : pool.Represents tables capacity saved current entries store)
    (mem : file ∈ tables.files) (table_eq : file.id = id.table) (here : current.page? id = some rows)
    (change : Page → Except Failure (Page × α)) {a : α} {rows' : PlainPage} {remark : Option TxnId → Option TxnId}
    (stores : file.Stores id.number.toNat rows')
    (change_eq : ∀ mark, change ((file.page id.number.toNat rows).markDirty mark) =
      .ok ((file.page id.number.toNat rows').markDirty (remark mark), a))
    (same : ∀ mark, remark mark = none → mark = none ∧ rows' = rows) :
    ∃ saved' entries' store', pool.mutate id change store = .ok a store' ∧
      pool.Represents tables capacity saved' (current.setPage id rows') entries' store' := by
  unfold mutate
  obtain ⟨frame, saved', entries', store', mark, represents, frame_eq, clean, alter_eq⟩ :=
    h.alter_eq mem table_eq here (allOrNothing change)
  have mirrors := represents.mirrors.change List.mem_cons_self mem table_eq (Contents.sameBut_refl ..)
    (Contents.sameBut_setPage current id rows') represents.mirrors.saved_sound
    (represents.mirrors.current_sound.setPage mem table_eq stores) ⟨rfl, rfl⟩ represents.mirrors.disk
    (Contents.page?_setPage_self here rows') (remark mark) (fun none => by
      obtain ⟨mark_eq, rfl⟩ := same mark none
      exact clean mark_eq) store'.meters
  have run : pool.alter id (allOrNothing change) store = .ok a
      { store' with frames :=
          store'.frames.setIfInBounds frame.index ((file.page id.number.toNat rows').markDirty (remark mark)) } := by
    rw [alter_eq, allOrNothing, change_eq mark]
    exact Action.bind_ok (FrameId.setPage_eq ..)
  exact ⟨saved', _, _, run, h.pos, represents.keeps.congr _ rfl, mirrors⟩

theorem mutate_error {α : Type} (h : pool.Represents tables capacity saved current entries store)
    (mem : file ∈ tables.files) (table_eq : file.id = id.table) (here : current.page? id = some rows)
    (change : Page → Except Failure (Page × α)) {failure : Failure}
    (change_eq : ∀ mark, change ((file.page id.number.toNat rows).markDirty mark) = .error failure) :
    ∃ saved' entries' store', pool.mutate id change store = .error failure store' ∧
      pool.Represents tables capacity saved' current entries' store' := by
  unfold mutate
  obtain ⟨frame, saved', entries', store', mark, represents, frame_eq, -, alter_eq⟩ :=
    h.alter_eq mem table_eq here (allOrNothing change)
  refine ⟨saved', _, store', ?_, represents⟩
  rw [alter_eq, allOrNothing, change_eq mark]
  exact Action.bind_ok (FrameId.setPage_self frame_eq)

/-! ## Flushing -/

theorem flushPage_ok (h : pool.Represents tables capacity saved current entries store) (id : PageId) :
    ∃ written saved' entries' store', pool.flushPage id store = .ok written store' ∧
      pool.Represents tables capacity saved' current entries' store' := by
  unfold flushPage
  cases found : Recency.value? entries id with
  | none =>
    obtain ⟨store', cache_eq, represents⟩ := h.get_miss found
    exact ⟨false, saved, entries, store', by rw [Action.bind_ok cache_eq]; rfl, represents⟩
  | some frame =>
    obtain ⟨store₁, cache_eq, represents⟩ := h.get_hit found
    obtain ⟨written, saved', store', write_eq, mirrors, pools_eq, -⟩ :=
      writeBack_ok represents.mirrors (List.mem_cons_self (a := (id, frame)))
    exact ⟨written, saved', _, store', by rw [Action.bind_ok cache_eq]; exact write_eq, h.pos,
      represents.keeps.congr _ pools_eq, mirrors⟩

theorem writeBackAll_ok {held : List (PageId × FrameId)} (h : Mirrors tables saved current held store)
    {list : List (PageId × FrameId)} (subset : ∀ entry ∈ list, entry ∈ held) :
    ∃ saved' store', writeBackAll list store = .ok () store' ∧ Mirrors tables saved' current held store' ∧
      store'.pools = store.pools ∧ (∀ entry ∈ list, store'.IsClean entry.2) ∧
      ∀ other, store.IsClean other → store'.IsClean other := by
  induction list generalizing saved store with
  | nil => exact ⟨saved, store, rfl, h, rfl, fun _ mem => absurd mem List.not_mem_nil, fun _ clean => clean⟩
  | cons entry list ih =>
    obtain ⟨written, saved₁, store₁, write_eq, mirrors₁, pools_eq₁, clean₁, still₁⟩ :=
      writeBack_ok h (subset entry List.mem_cons_self)
    obtain ⟨saved₂, store₂, all_eq, mirrors₂, pools_eq₂, clean₂, still₂⟩ :=
      ih mirrors₁ fun other mem => subset other (List.mem_cons_of_mem _ mem)
    refine ⟨saved₂, store₂, ?_, mirrors₂, pools_eq₂.trans pools_eq₁, ?_, fun other clean => still₂ _ (still₁ _ clean)⟩
    · unfold writeBackAll
      rw [Action.bind_ok (Action.discard_ok write_eq), all_eq]
    · intro other mem
      rcases List.mem_cons.mp mem with rfl | mem
      · exact still₂ _ clean₁
      · exact clean₂ other mem

theorem flushAll_ok (h : pool.Represents tables capacity saved current entries store) :
    ∃ saved' store', pool.flushAll store = .ok () store' ∧
      pool.Represents tables capacity saved' current entries store' ∧ ∀ entry ∈ entries, store'.IsClean entry.2 := by
  obtain ⟨kept, kept_eq, holds, -⟩ := h.keeps
  obtain ⟨saved', store', all_eq, mirrors, pools_eq, clean, -⟩ := writeBackAll_ok h.mirrors fun entry mem => mem
  refine ⟨saved', store', ?_, ⟨h.pos, h.keeps.congr _ pools_eq, mirrors⟩, clean⟩
  unfold flushAll
  rw [Action.bind_ok (pool_eq kept_eq), Action.bind_ok (Action.guard_apply_ok holds.entries_eq store), all_eq]

/-- Of some of the pages in memory, those with the mark of a transaction are written back and lose it. No page gets a
mark, and the pages that did not have this one stay in their files as they were. -/
theorem writeBackOf_ok {held : List (PageId × FrameId)} (h : Mirrors tables saved current held store) (txn : TxnId)
    {list : List (PageId × FrameId)} (subset : ∀ entry ∈ list, entry ∈ held) :
    ∃ saved' store', writeBackOf txn list store = .ok () store' ∧ Mirrors tables saved' current held store' ∧
      store'.pools = store.pools ∧ (∀ entry ∈ list, ¬store'.MarkedBy txn entry.2) ∧
      (∀ other frame, store'.MarkedBy other frame → store.MarkedBy other frame) ∧
      ∀ id, (∀ frame, (id, frame) ∈ held → ¬store.MarkedBy txn frame) → saved'.page? id = saved.page? id := by
  induction list generalizing saved store with
  | nil =>
    exact ⟨saved, store, rfl, h, rfl, fun _ mem => absurd mem List.not_mem_nil, fun _ _ marked => marked,
      fun _ _ => rfl⟩
  | cons entry list ih =>
    obtain ⟨id, frame⟩ := entry
    have mem := subset _ List.mem_cons_self
    have subset' := fun other mem => subset other (List.mem_cons_of_mem (id, frame) mem)
    obtain ⟨file, file_mem, table_eq, rows, mark, here, frame_eq, -⟩ := h.entries _ mem
    unfold writeBackOf
    rw [Action.bind_ok (FrameId.page_eq frame_eq)]
    by_cases mine : mark = some txn
    · subst mine
      obtain ⟨disk, meters, write_eq, mirrors₁⟩ := writeBack_marked h mem file_mem table_eq here frame_eq
      obtain ⟨saved₂, store₂, all_eq, mirrors₂, pools_eq₂, gone₂, fades₂, kept₂⟩ := ih mirrors₁ subset'
      refine ⟨saved₂, store₂, ?_, mirrors₂, pools_eq₂, ?_, ?_, ?_⟩
      · rw [Page.dirtier_markDirty, if_pos rfl, Action.bind_ok (Action.discard_ok write_eq)]
        exact all_eq
      · intro other other_mem marked
        rcases List.mem_cons.mp other_mem with rfl | other_mem
        · exact (Store.markedBy_of_cleared frame_eq rfl (fades₂ _ _ marked)).2 rfl
        · exact gone₂ other other_mem marked
      · intro other frame' marked
        exact (Store.markedBy_of_cleared frame_eq rfl (fades₂ _ _ marked)).1
      · intro other unmarked
        have ne : other ≠ id := by
          rintro rfl
          exact unmarked frame mem ⟨_, frame_eq, rfl⟩
        rw [kept₂ other, Contents.page?_setPage_of_ne ne]
        intro frame' mem' marked
        exact unmarked frame' mem' (Store.markedBy_of_cleared frame_eq rfl marked).1
    · obtain ⟨saved₂, store₂, all_eq, mirrors₂, pools_eq₂, gone₂, fades₂, kept₂⟩ := ih h subset'
      refine ⟨saved₂, store₂, ?_, mirrors₂, pools_eq₂, ?_, fades₂, kept₂⟩
      · rw [Page.dirtier_markDirty, if_neg mine]
        exact all_eq
      · intro other other_mem marked
        rcases List.mem_cons.mp other_mem with rfl | other_mem
        · obtain ⟨page, frame_eq', marked⟩ := fades₂ _ _ marked
          cases frame_eq.symm.trans frame_eq'
          exact mine marked
        · exact gone₂ other other_mem marked

theorem flushTxn_ok (h : pool.Represents tables capacity saved current entries store) (txn : TxnId) :
    ∃ saved' store', pool.flushTxn txn store = .ok () store' ∧
      pool.Represents tables capacity saved' current entries store' ∧
      (∀ entry ∈ entries, ¬store'.MarkedBy txn entry.2) ∧
      (∀ other frame, store'.MarkedBy other frame → store.MarkedBy other frame) ∧
      ∀ id, (∀ frame, (id, frame) ∈ entries → ¬store.MarkedBy txn frame) → saved'.page? id = saved.page? id := by
  obtain ⟨kept, kept_eq, holds, -⟩ := h.keeps
  obtain ⟨saved', store', all_eq, mirrors, pools_eq, rest⟩ := writeBackOf_ok h.mirrors txn fun entry mem => mem
  refine ⟨saved', store', ?_, ⟨h.pos, h.keeps.congr _ pools_eq, mirrors⟩, rest⟩
  unfold flushTxn
  rw [Action.bind_ok (pool_eq kept_eq), Action.bind_ok (Action.guard_apply_ok holds.entries_eq store), all_eq]

/-! ## Discarding -/

theorem discardPage_ok (h : pool.Represents tables capacity saved current entries store) (id : PageId) :
    ∃ resident entries' store', pool.discardPage id store = .ok resident store' ∧
      pool.Represents tables capacity saved (current.revert saved id) entries' store' := by
  obtain ⟨pools, cache_eq, keeps⟩ := onCache_ok h.keeps (fun cache => cache.remove id)
    (Recency.remove entries id) fun cache holds capacity_eq => capacity_eq ▸ holds.remove id
  have run : pool.discardPage id store = .ok (Recency.value? entries id).isSome { store with pools } := by
    unfold discardPage
    rw [Action.bind_ok cache_eq]
    rfl
  refine ⟨_, _, _, run, h.pos, keeps, ?_⟩
  cases found : Recency.value? entries id with
  | none =>
    have unkept := Recency.not_mem_of_value? found
    have forget_eq : (Recency.remove entries id).1 = entries := Recency.forget_absent unkept
    rw [forget_eq, Contents.revert_eq_self (h.mirrors.others id unkept)]
    exact h.mirrors.congr _ rfl rfl rfl
  | some frame =>
    exact (h.mirrors.perm (Recency.use_perm h.mirrors.ids found)).discard.congr _ rfl rfl rfl

end Represents

end PoolId

end RowStore
