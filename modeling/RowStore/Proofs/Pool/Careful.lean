import RowStore.Proofs.Pool.Losses
import RowStore.Store.Rows

/-!
# Actions that lose nothing unless they fail

Fetching, storing and removing rows, and giving up pages take a changed page out of memory only to write it to its file.
-/

namespace RowStore

namespace PoolId

variable {pool : PoolId} {id : PageId} {store : Store} {kept kept' : Pool}
  {entries entries' : List (PageId × FrameId)}

/-! ## Fetching -/

theorem reorder (tidy : store.Tidy) (kept_eq : store.pools[pool.index]? = some kept)
    (order : kept.Tidy entries store.frames.size) (perm : entries.Perm entries') (holds : kept'.cache.Holds entries')
    (capacity_eq : kept'.cache.capacity = kept.cache.capacity) :
    ∃ after, after = { store with pools := store.pools.setIfInBounds pool.index kept' } ∧ after.Tidy ∧
      pool.GivesUp none store after ∧ after.pools[pool.index]? = some kept' ∧
      kept'.Tidy entries' after.frames.size := by
  have lt := (Array.getElem?_eq_some_iff.mp kept_eq).1
  have kept_eq' : (store.pools.setIfInBounds pool.index kept')[pool.index]? = some kept' :=
    Array.getElem?_setIfInBounds_self_of_lt lt
  have order' := order.fewer [] perm holds capacity_eq
  exact ⟨_, rfl, tidy.setPool rfl (Nat.le_refl _) order',
    .ofEntries [] kept_eq kept_eq' order order' perm (fun _ mem => absurd mem List.not_mem_nil) rfl rfl
      fun _ _ frame_eq => frame_eq, kept_eq', order'⟩

theorem get_cases (tidy : store.Tidy) (pool : PoolId) (id : PageId) :
    (pool.onCache (fun cache => cache.get id) store = .error (.aborted .unknownHandle) store ∧
        store.pools[pool.index]? = none) ∨
      (∃ frame after, pool.onCache (fun cache => cache.get id) store = .ok (some frame) after ∧ after.Tidy ∧
        pool.GivesUp none store after ∧ pool.Resident id frame after) ∨
      ∃ after kept, pool.onCache (fun cache => cache.get id) store = .ok none after ∧ after.Tidy ∧
        pool.GivesUp none store after ∧ after.pools[pool.index]? = some kept ∧
        (∀ frame, ¬ pool.Resident id frame store) ∧ ∀ frame, ¬ pool.Resident id frame after := by
  rcases onCache_cases tidy pool (fun cache => cache.get id) (fun _ entries => Recency.get entries id)
      fun cache entries holds _ => holds.get id with
    ⟨missing, run⟩ | ⟨kept, entries, kept', kept_eq, order, run, holds, capacity_eq⟩
  · exact .inl ⟨run, missing⟩
  · cases found : Recency.value? entries id with
    | some frame =>
      rw [Recency.get, found] at run holds
      have perm := Recency.use_perm order.holds.keys_nodup found
      obtain ⟨after, rfl, tidy', gives, kept_eq', order'⟩ := reorder tidy kept_eq order perm holds capacity_eq
      exact .inr (.inl ⟨frame, _, run, tidy', gives, (order'.resident_iff kept_eq').mpr List.mem_cons_self⟩)
    | none =>
      rw [Recency.get, found] at run holds
      obtain ⟨after, rfl, tidy', gives, kept_eq', order'⟩ := reorder tidy kept_eq order (.refl _) holds capacity_eq
      have unkept : ∀ frame, (id, frame) ∉ entries := fun frame mem =>
        Recency.not_mem_of_value? found (List.mem_map_of_mem mem)
      exact .inr (.inr ⟨_, kept', run, tidy', gives, kept_eq',
        fun frame resident => unkept frame ((order.resident_iff kept_eq).mp resident),
        fun frame resident => unkept frame ((order'.resident_iff kept_eq').mp resident)⟩)

theorem getOrInsert_cases (tidy : store.Tidy) (kept_eq : store.pools[pool.index]? = some kept)
    (absent : ∀ frame, ¬ pool.Resident id frame store) (page : Page) (meters : Array Meter) :
    ∃ evicted middle, pool.onCache (fun cache => cache.getOrInsert id ⟨store.frames.size⟩)
        { store with meters, frames := store.frames.push page } = .ok (⟨store.frames.size⟩, evicted) middle ∧
      middle.frames = store.frames.push page ∧ middle.Tidy ∧ pool.GivesUp evicted store middle ∧
      pool.Resident id ⟨store.frames.size⟩ middle ∧
      ∀ (other : PoolId) (id' : PageId) (frame : FrameId), other.Resident id' frame middle →
        other.Resident id' frame store ∨ id' = id ∧ frame = ⟨store.frames.size⟩ := by
  obtain ⟨entries, order⟩ := tidy pool.index kept kept_eq
  obtain ⟨cache, change_eq, holds, capacity_eq⟩ := order.holds.getOrInsert order.pos id ⟨store.frames.size⟩
  have absent' : Recency.value? entries id = none := by
    cases found : Recency.value? entries id with
    | none => rfl
    | some frame => exact absurd ((order.resident_iff kept_eq).mpr (Recency.mem_of_value? found)) (absent frame)
  rw [Recency.getOrInsert, absent'] at change_eq holds
  have perm := Recency.makeRoom_perm kept.cache.capacity entries
  have order' : Pool.Tidy { kept with cache } _ _ := order.cons perm holds capacity_eq
  rw [← Array.size_push (v := page)] at order'
  have lt := (Array.getElem?_eq_some_iff.mp kept_eq).1
  have kept_eq' : (store.pools.setIfInBounds pool.index { kept with cache })[pool.index]? = some { kept with cache } :=
    Array.getElem?_setIfInBounds_self_of_lt lt
  have kept_eq₁ : ({ store with meters, frames := store.frames.push page } : Store).pools[pool.index]? = some kept :=
    kept_eq
  refine ⟨_, _, onCache_eq kept_eq₁ change_eq, rfl, ?_, ?_, ?_, fun other id' frame resident => ?_⟩
  · exact tidy.setPool rfl (by simp) order'
  · refine .ofEntries [(id, ⟨store.frames.size⟩)] kept_eq kept_eq' order order' perm ?_ rfl rfl ?_
    · intro entry mem
      cases List.mem_singleton.mp mem
      exact ⟨Recency.not_mem_of_value? absent', Nat.le_refl _⟩
    · intro frame page' frame_eq
      have lt := (Array.getElem?_eq_some_iff.mp frame_eq).1
      exact (Array.getElem?_push_lt lt).trans ((Array.getElem?_eq_getElem lt).symm.trans frame_eq)
  · exact (order'.resident_iff kept_eq').mpr List.mem_cons_self
  · rcases of_resident_setPool kept_eq₁ order' rfl resident with before | ⟨same, mem⟩
    · exact .inl (before.congr rfl)
    · rcases List.mem_cons.mp mem with new | mem
      · cases new
        exact .inr ⟨rfl, rfl⟩
      · left
        rw [← same] at kept_eq
        exact (order.resident_iff kept_eq).mpr (perm.mem_iff.mpr (List.mem_append_right _ mem))

theorem load_cases (tidy : store.Tidy) (kept_eq : store.pools[pool.index]? = some kept)
    (absent : ∀ frame, ¬ pool.Resident id frame store) :
    (∃ failure writes after, pool.load id store = .error failure after ∧ after.Tidy ∧
        pool.Passes (some failure) writes store after) ∨
      ∃ frame writes after, pool.load id store = .ok frame after ∧ after.Tidy ∧
        pool.Passes none writes store after ∧ pool.Resident id frame after := by
  unfold load
  cases found : store.catalog.file id.table with
  | error e => exact .inl ⟨_, [], store, Action.bind_error (Store.lookUp_error found), tidy, .refl ..⟩
  | ok file =>
    rw [Action.bind_ok (Store.lookUp_ok found)]
    obtain ⟨meters, ⟨failure, failed⟩ | ⟨page, read_eq⟩⟩ := file.readPage_cases id.number store
    · exact .inl ⟨failure, [], _, Action.bind_error failed, tidy.congr rfl (Nat.le_refl _),
        .ofDisk (.nil _) rfl rfl rfl⟩
    · obtain ⟨evicted, middle, run, -, tidy', gives, resident, -⟩ := getOrInsert_cases tidy kept_eq absent page meters
      rw [Action.bind_ok read_eq, Action.bind_ok (Store.addFrame_eq ..), Action.bind_ok run]
      rcases gives.settle tidy' with
        ⟨writes, after, write_eq, tidy'', pools_eq, passes⟩ | ⟨failure, failed, passes⟩
      · exact .inr ⟨_, writes, after, Action.bind_ok write_eq, tidy'', passes, resident.congr pools_eq⟩
      · exact .inl ⟨failure, [], middle, Action.bind_error failed, tidy', passes⟩

theorem fetch_cases (tidy : store.Tidy) (pool : PoolId) (id : PageId) :
    (∃ failure writes after, pool.fetch id store = .error failure after ∧ after.Tidy ∧
        pool.Passes (some failure) writes store after ∧ ∀ frame, ¬ pool.Resident id frame store) ∨
      ∃ frame writes after, pool.fetch id store = .ok frame after ∧ after.Tidy ∧
        pool.Passes none writes store after ∧ pool.Resident id frame after := by
  unfold fetch
  rcases get_cases tidy pool id with
    ⟨run, missing⟩ | ⟨frame, after, run, tidy', gives, resident⟩ |
      ⟨middle, kept, run, tidy', gives, kept_eq, absent, absent'⟩
  · exact .inl ⟨_, [], store, Action.bind_error run, tidy, .refl .., fun frame => not_resident missing⟩
  · exact .inr ⟨frame, [], after, by rw [Action.bind_ok run]; rfl, tidy', gives.unchanged, resident⟩
  · rw [Action.bind_ok run]
    rcases load_cases tidy' kept_eq absent' with
      ⟨failure, writes, after, failed, tidy'', passes'⟩ | ⟨frame, writes, after, load_eq, tidy'', passes', resident⟩
    · exact .inl ⟨failure, _, after, failed, tidy'', gives.unchanged.trans passes', absent⟩
    · exact .inr ⟨frame, _, after, load_eq, tidy'', gives.unchanged.trans passes', resident⟩

theorem alter_cases {α : Type} (tidy : store.Tidy) (pool : PoolId) (id : PageId)
    (work : Page → Page × Except Failure α) :
    (∃ failure writes after, pool.alter id work store = .error failure after ∧ after.Tidy ∧
        pool.Passes (some failure) writes store after ∧ (∀ frame, ¬ pool.Resident id frame store) ∧
        pool.fetch id store = .error failure after) ∨
      ∃ frame page writes middle, middle.Tidy ∧ pool.Passes none writes store middle ∧
        pool.Resident id frame middle ∧ middle.frames[frame.index]? = some page ∧
        pool.fetch id store = .ok frame middle ∧
        pool.alter id work store = Action.attempt (work page).2
          { middle with frames := middle.frames.setIfInBounds frame.index (work page).1 } := by
  unfold alter
  rcases fetch_cases tidy pool id with
    ⟨failure, writes, after, failed, tidy', passes, absent⟩ | ⟨frame, writes, middle, run, tidy', passes, resident⟩
  · exact .inl ⟨failure, writes, after, Action.bind_error failed, tidy', passes, absent, failed⟩
  · obtain ⟨page, frame_eq⟩ := tidy'.page_of_resident resident
    have ⟨kept, kept_eq, peek_eq⟩ := resident
    refine .inr ⟨frame, page, writes, middle, tidy', passes, resident, frame_eq, run, ?_⟩
    rw [Action.bind_ok run, Action.bind_ok (pool_eq kept_eq), Action.bind_ok (Action.guard_apply_ok peek_eq middle)]
    simp only [ite_true]
    rw [Action.bind_ok (FrameId.page_eq frame_eq)]
    exact Action.bind_ok (FrameId.setPage_eq ..)

theorem discardLast_cases (tidy : store.Tidy) (pool : PoolId) :
    (store.pools[pool.index]? = none ∧
        pool.onCache Cache.discardLast store = .error (.aborted .unknownHandle) store) ∨
      ∃ kept entries middle, store.pools[pool.index]? = some kept ∧ kept.cache.Holds entries ∧
        pool.onCache Cache.discardLast store = .ok entries.getLast? middle ∧ middle.Tidy ∧
        pool.GivesUp entries.getLast? store middle := by
  rcases onCache_cases tidy pool Cache.discardLast (fun _ entries => Recency.discardLast entries)
      fun cache entries holds _ => holds.discardLast with
    missing | ⟨kept, entries, kept', kept_eq, order, run, holds, capacity_eq⟩
  · exact .inl missing
  · have perm := Recency.discardLast_perm entries
    have order' := order.fewer _ perm holds capacity_eq
    have lt := (Array.getElem?_eq_some_iff.mp kept_eq).1
    exact .inr ⟨kept, entries, _, kept_eq, order.holds, run, tidy.setPool rfl (Nat.le_refl _) order',
      .ofEntries [] kept_eq (Array.getElem?_setIfInBounds_self_of_lt lt) order order' perm
        (fun _ mem => absurd mem List.not_mem_nil) rfl rfl fun _ _ frame_eq => frame_eq⟩

/-! ## Actions that lose nothing unless they fail -/

section Careful

variable {α β : Type} {quiet : α → Prop} {quiet' : β → Prop} {action : Action α} {next : α → Action β}

/-- The action loses the changes of a page only by failing. A result that is not `quiet` comes with a change of a
page. -/
structure Careful (pool : PoolId) (quiet : α → Prop) (action : Action α) : Prop where
  ok : ∀ (store after : Store) (a : α), store.Tidy → action store = .ok a after →
    after.Tidy ∧ (quiet a → ∃ writes, pool.Passes none writes store after)
  error : ∀ (store after : Store) (failure : Failure), store.Tidy → action store = .error failure after →
    after.Tidy ∧ ∃ writes, pool.Passes (some failure) writes store after

namespace Careful

theorem ofCases (h : ∀ store : Store, store.Tidy →
    (∃ failure writes after, action store = .error failure after ∧ after.Tidy ∧
        pool.Passes (some failure) writes store after) ∨
      ∃ a after, action store = .ok a after ∧ after.Tidy ∧ (quiet a → ∃ writes, pool.Passes none writes store after)) :
    pool.Careful quiet action := by
  constructor
  · intro store after a tidy run
    rcases h store tidy with ⟨failure, writes, after', failed, -⟩ | ⟨b, after', run', tidy', passes⟩
    · cases failed.symm.trans run
    · cases run'.symm.trans run
      exact ⟨tidy', passes⟩
  · intro store after failure tidy failed
    rcases h store tidy with ⟨failure', writes, after', failed', tidy', passes⟩ | ⟨b, after', run, -⟩
    · cases failed'.symm.trans failed
      exact ⟨tidy', writes, passes⟩
    · cases run.symm.trans failed

theorem ofLooks (h : action.Looks) : pool.Careful quiet action :=
  ofCases fun store tidy => by
    rcases h store with ⟨failure, failed⟩ | ⟨a, run⟩
    · exact .inl ⟨failure, [], store, failed, tidy, .refl ..⟩
    · exact .inr ⟨a, store, run, tidy, fun _ => ⟨[], .refl ..⟩⟩

theorem pure (a : α) : pool.Careful quiet (pure a) := ofLooks fun _ => .inr ⟨a, rfl⟩

theorem fail (failure : Failure) : pool.Careful quiet (Action.fail failure) := ofLooks fun _ => .inl ⟨failure, rfl⟩

theorem failThen (failure : Failure) (next : α → Action β) : pool.Careful quiet' (Action.fail failure >>= next) :=
  ofLooks fun _ => .inl ⟨failure, rfl⟩

theorem bind (first : pool.Careful quiet action) (following : ∀ a, quiet a → pool.Careful quiet' (next a))
    (done : ∀ a, ¬ quiet a → ∃ b, ¬ quiet' b ∧ next a = Pure.pure b) : pool.Careful quiet' (action >>= next) := by
  constructor
  · intro store after b tidy run
    obtain ⟨a, middle, first_eq, next_eq⟩ := Action.of_bind_ok run
    obtain ⟨tidy', passes⟩ := first.ok store middle a tidy first_eq
    by_cases still : quiet a
    · obtain ⟨writes, passes⟩ := passes still
      obtain ⟨tidy'', passes'⟩ := (following a still).ok middle after b tidy' next_eq
      refine ⟨tidy'', fun still' => ?_⟩
      obtain ⟨writes', passes'⟩ := passes' still'
      exact ⟨_, passes.trans passes'⟩
    · obtain ⟨b', loud, pure_eq⟩ := done a still
      rw [pure_eq] at next_eq
      cases next_eq
      exact ⟨tidy', fun still' => absurd still' loud⟩
  · intro store after failure tidy failed
    rcases Action.of_bind_error failed with first_eq | ⟨a, middle, first_eq, next_eq⟩
    · exact first.error store after failure tidy first_eq
    · obtain ⟨tidy', passes⟩ := first.ok store middle a tidy first_eq
      by_cases still : quiet a
      · obtain ⟨writes, passes⟩ := passes still
        obtain ⟨tidy'', writes', passes'⟩ := (following a still).error middle after failure tidy' next_eq
        exact ⟨tidy'', _, passes.trans passes'⟩
      · obtain ⟨b', loud, pure_eq⟩ := done a still
        rw [pure_eq] at next_eq
        cases next_eq

theorem andThen (first : pool.Careful (fun _ => True) action) (following : ∀ a, pool.Careful quiet' (next a)) :
    pool.Careful quiet' (action >>= next) :=
  first.bind (fun a _ => following a) fun _ loud => absurd trivial loud

theorem discard (h : pool.Careful quiet action) : pool.Careful (fun _ => False) (discard action) := by
  constructor
  · intro store after a tidy run
    obtain ⟨b, run⟩ := Action.of_discard_ok run
    exact ⟨(h.ok store after b tidy run).1, False.elim⟩
  · intro store after failure tidy failed
    exact h.error store after failure tidy (Action.of_discard_error failed)

/-! ## The requests -/

theorem fetch (pool : PoolId) (id : PageId) : pool.Careful (fun _ => True) (pool.fetch id) :=
  ofCases fun store tidy => by
    rcases fetch_cases tidy pool id with
      ⟨failure, writes, after, failed, tidy', passes, -⟩ | ⟨frame, writes, after, run, tidy', passes, -⟩
    · exact .inl ⟨failure, writes, after, failed, tidy', passes⟩
    · exact .inr ⟨frame, after, run, tidy', fun _ => ⟨writes, passes⟩⟩

theorem mutate (pool : PoolId) (id : PageId) (change : Page → Except Failure (Page × α))
    (same : ∀ page page' a, change page = .ok (page', a) → quiet a → page' = page) :
    pool.Careful quiet (pool.mutate id change) :=
  ofCases fun store tidy => by
    unfold PoolId.mutate
    rcases alter_cases tidy pool id (allOrNothing change) with
      ⟨failure, writes, after, failed, tidy', passes, -⟩ |
        ⟨frame, page, writes, middle, tidy', passes, -, frame_eq, -, run⟩
    · exact .inl ⟨failure, writes, after, failed, tidy', passes⟩
    · rw [run, allOrNothing]
      cases change_eq : change page with
      | error failure =>
        refine .inl ⟨failure, writes, middle, ?_, tidy', passes.weaken⟩
        rw [FrameId.frames_setPage_self frame_eq]
        rfl
      | ok changed =>
        obtain ⟨page', a⟩ := changed
        refine .inr ⟨a, _, rfl, tidy'.congr rfl (by simp), fun still => ?_⟩
        obtain rfl := same page page' a change_eq still
        rw [FrameId.frames_setPage_self frame_eq]
        exact ⟨writes, passes⟩

theorem mutateThen (pool : PoolId) (id : PageId) (change : Page → Except Failure (Page × α)) (b : β) :
    pool.Careful (fun _ => False) (do _ ← pool.mutate id change; return b : Action β) := by
  have first : pool.Careful (fun _ => False) (pool.mutate id change) :=
    mutate pool id change fun _ _ _ _ still => still.elim
  exact first.bind (fun _ still => still.elim) fun _ loud => ⟨b, loud, rfl⟩

variable {file : TableFile} {txn : TxnId} {row : Row}

theorem appendPage : pool.Careful (fun _ => True) file.appendPage := by
  refine andThen (ofLooks file.pageCount_looks) fun number => ?_
  refine andThen (ofLooks (Action.guard_looks _)) fun data => andThen ?_ fun _ => pure number
  refine ofCases fun store tidy => ?_
  rcases file.writeBytes_cases number data store with
    ⟨failure, failed⟩ | ⟨offset, disk, meters, offset_eq, write_eq, run⟩
  · exact .inl ⟨failure, [], store, failed, tidy, .refl ..⟩
  · exact .inr ⟨(), _, run, tidy.congr rfl (Nat.le_refl _), fun _ =>
      ⟨[⟨file, number, data⟩], .ofDisk (.cons offset_eq write_eq (.nil _)) rfl rfl rfl⟩⟩

theorem insertOn : pool.Careful (· = none) (TableFile.insertOn pool txn id row) :=
  mutate pool id _ fun page page' stored change_eq still => by
    subst still
    split at change_eq
    · cases change_eq
    · cases change_eq
      rfl
    · cases change_eq

theorem insertAmong (left : Nat) (number : UInt32) :
    pool.Careful (· = none) (file.insertAmong pool txn row left number) := by
  induction left generalizing number with
  | zero => exact pure none
  | succ left ih =>
    refine insertOn.bind (fun stored still => ?_) fun stored loud => ?_
    · subst still
      exact ih (number + 1)
    · obtain ⟨stored, rfl⟩ := Option.ne_none_iff_exists'.mp loud
      exact ⟨some stored, loud, rfl⟩

theorem insertAppending (left : Nat) : pool.Careful (fun _ => False) (file.insertAppending pool txn row left) := by
  induction left with
  | zero => exact fail _
  | succ left ih =>
    refine appendPage.andThen fun number => insertOn.bind (fun stored still => ?_) fun stored loud => ?_
    · subst still
      exact ih
    · obtain ⟨stored, rfl⟩ := Option.ne_none_iff_exists'.mp loud
      exact ⟨stored, id, rfl⟩

theorem fileInsert : pool.Careful (fun _ => False) (file.insert pool txn row) := by
  unfold TableFile.insert
  split
  · exact failThen ..
  · refine andThen (ofLooks file.pageCount_looks) fun count =>
      (insertAmong count.toNat 0).bind (fun stored still => ?_) fun stored loud => ?_
    · subst still
      exact insertAppending UInt32.size
    · obtain ⟨stored, rfl⟩ := Option.ne_none_iff_exists'.mp loud
      exact ⟨stored, id, rfl⟩

theorem fileDelete : pool.Careful (fun _ => False) (file.delete pool txn row) := by
  unfold TableFile.delete
  cases row.id with
  | none => exact fail _
  | some id =>
    dsimp only
    split
    · exact failThen ..
    · refine andThen (ofLooks file.pageCount_looks) fun count => ?_
      split
      · exact failThen ..
      · exact mutateThen ..

theorem insert {table : TableId} : pool.Careful (fun _ => False) (pool.insert txn table row) :=
  andThen (ofLooks (Store.lookUp_looks _)) fun _ => fileInsert

theorem delete : pool.Careful (fun _ => False) (pool.delete txn row) := by
  unfold PoolId.delete
  cases row.id with
  | none => exact fail _
  | some id => exact andThen (ofLooks (Store.lookUp_looks _)) fun _ => fileDelete.discard

theorem evict : pool.Careful (fun _ => True) pool.evict :=
  ofCases fun store tidy => by
    unfold PoolId.evict
    rcases discardLast_cases tidy pool with ⟨-, run⟩ | ⟨kept, entries, middle, -, -, run, tidy', gives⟩
    · exact .inl ⟨_, [], store, Action.bind_error run, tidy, .refl ..⟩
    · rw [Action.bind_ok run]
      rcases gives.settle tidy' with
        ⟨writes, after, write_eq, tidy'', -, passes⟩ | ⟨failure, failed, passes⟩
      · exact .inr ⟨_, after, Action.bind_ok write_eq, tidy'', fun _ => ⟨writes, passes⟩⟩
      · exact .inl ⟨failure, [], middle, Action.bind_error failed, tidy', passes⟩

end Careful

end Careful

end PoolId

end RowStore
