import RowStore.Proofs.Pool.Evolution
import RowStore.Proofs.Pool.Growth

/-!
# Whether a pool follows the catalog

A pool asks the catalog for the file of a table only when it has to read or write a page. A page that it has is served
as it is, also when its table was forgotten or replaced since, and is written to whatever file is registered by then. So
a pool follows the catalog just as long as the pages that it has are pages of files that are registered.
-/

namespace RowStore

open RowStore.Action (Steady)

variable {good : Page → Prop} {allowed : Row → Prop} {catalogs : List Catalog} {store after : Store} {pool : PoolId}
  {id : PageId} {frame : FrameId}

/-! ## The catalog -/

namespace Catalog

/-- Tables are registered under the ids of their files. -/
def Keyed (catalog : Catalog) : Prop := ∀ table file, catalog.file table = .ok file → file.id = table

variable {catalog : Catalog} {table : TableId} {file found : TableFile}

theorem file_eq_ok_iff :
    catalog.file table = .ok file ↔ ∃ known, catalog.tables.get? table = some known ∧ known.file = file := by
  unfold Catalog.file Catalog.table
  cases catalog.tables.get? table with
  | none => simp [Except.map]
  | some known => simp [Except.map]

theorem keyed_empty : Catalog.empty.Keyed := fun table file h => by
  obtain ⟨known, here, -⟩ := file_eq_ok_iff.mp h
  cases here

theorem of_file_register {name primaryKey : String}
    (h : (catalog.register file name primaryKey).file table = .ok found) :
    table = file.id ∧ found = file ∨ catalog.file table = .ok found := by
  obtain ⟨known, here, file_eq⟩ := file_eq_ok_iff.mp h
  rw [register, enter, Assoc.get?_insert] at here
  split at here
  · next same =>
    cases here
    exact .inl ⟨same, file_eq.symm⟩
  · refine .inr (file_eq_ok_iff.mpr ⟨known, ?_, file_eq⟩)
    have before : (catalog.forgetId file.id).tables.get? table = some known := by
      unfold forgetName at here
      split at here
      · rw [Assoc.get?_erase] at here
        split at here
        · cases here
        · exact here
      · exact here
    unfold forgetId at before
    split at before
    · rw [Assoc.get?_erase] at before
      split at before
      · cases before
      · exact before
    · exact before

theorem Keyed.register (h : catalog.Keyed) (file : TableFile) (name primaryKey : String) :
    (catalog.register file name primaryKey).Keyed := fun table found found_eq => by
  rcases of_file_register found_eq with ⟨same, rfl⟩ | before
  · exact same.symm
  · exact h table found before

end Catalog

/-! ## Histories -/

/-- Whoever changes a page leaves its id, its schema and its size, and the rows that are stored are allowed. -/
def StoreRequest.Admitted (good : Page → Prop) (allowed : Row → Prop) (store : Store) : StoreRequest → Prop
  | .setPage frame page => ∀ old, store.frames[frame.index]? = some old → old.Becomes page ∧ (good old → good page)
  | .ofPool _ (.alter _ work) => ∀ page : Page, page.Becomes (work page).1 ∧ (good page → good (work page).1)
  | .ofPool _ (.insert _ _ row) => allowed row
  | .fileInsert _ _ _ row => allowed row
  | _ => True

/-- The stores that admitted requests lead to from a disk, with the catalogs that there were, the one of now first. -/
inductive Store.Lived (good : Page → Prop) (allowed : Row → Prop) : List Catalog → Store → Prop where
  | start (disk : Disk) : Store.Lived good allowed [.empty] (.ofDisk disk)
  | step {catalogs : List Catalog} {store : Store} (lived : store.Lived good allowed catalogs) (request : StoreRequest)
      (admitted : request.Admitted good allowed store) :
      Store.Lived good allowed ((request.run.after store).catalog :: catalogs) (request.run.after store)

theorem Store.Lived.reached (h : store.Lived good allowed catalogs) : store.Reached := by
  induction h with
  | start disk => exact .start disk
  | step _ request _ ih => exact ih.step request

theorem TableFile.openAt_disk (path : String) (schema : Schema) (pageSize : Nat) (store : Store) :
    ∃ disk meters, (openAt path schema pageSize).after store = { store with disk, meters } := by
  unfold openAt Action.after
  cases checkSizes schema pageSize with
  | error failure =>
    rw [Action.bind_error (Action.attempt_apply_error rfl store)]
    exact ⟨_, _, rfl⟩
  | ok _ =>
    rw [Action.bind_ok (Action.attempt_apply_ok rfl store), Action.bind_ok (Action.get_apply store)]
    cases store.disk.locate path with
    | error e =>
      rw [Action.bind_error (Action.check_apply_error rfl store)]
      exact ⟨_, _, rfl⟩
    | ok place =>
      rw [Action.bind_ok (Action.check_apply_ok rfl store)]
      exact ⟨_, _, rfl⟩

theorem Store.setFileBytes_disk (path : String) (bytes : Bytes) (store : Store) :
    ∃ disk meters, (setFileBytes path bytes).after store = { store with disk, meters } := by
  unfold setFileBytes Action.after
  rw [Action.bind_ok (Action.get_apply store)]
  cases store.disk.locate path with
  | error e =>
    rw [Action.bind_error (Action.check_apply_error rfl store)]
    exact ⟨_, _, rfl⟩
  | ok place =>
    rw [Action.bind_ok (Action.check_apply_ok rfl store)]
    exact ⟨_, _, rfl⟩

theorem Store.addPool_steady (config : Config) : (addPool config).Steady good := .of fun store tidy => by
  refine ⟨addPool_orderly config store tidy, ?_⟩
  unfold Action.after
  cases run : addPool config store with
  | ok pool after =>
    obtain ⟨-, -, rfl⟩ := of_addPool run
    refine .ofFrames rfl rfl fun other id frame resident => ?_
    obtain ⟨kept, kept_eq, peek_eq⟩ := resident
    rw [Array.getElem?_push] at kept_eq
    split at kept_eq
    · cases kept_eq
      have holds : (Cache.fresh config.poolPages : Cache PageId FrameId).Holds [] := ⟨[], Cache.valid_fresh _, rfl⟩
      rw [holds.peek_eq] at peek_eq
      cases peek_eq
    · exact ⟨kept, kept_eq, peek_eq⟩
  | error failure after =>
    unfold addPool at run
    rcases Action.of_bind_error run with failed | ⟨_, store₁, check_eq, h₁⟩
    · obtain rfl := Action.of_attempt_error failed
      exact .refl _
    · obtain ⟨-, rfl⟩ := Action.of_check_ok check_eq
      rcases Action.of_bind_error h₁ with failed | ⟨cache, store₂, -, h₂⟩
      · obtain rfl := Action.of_attempt_error failed
        exact .refl _
      · cases h₂

theorem PoolRequest.run_steady (lasting : Page.Lasting good allowed) {request : PoolRequest}
    (admitted : (StoreRequest.ofPool pool request).Admitted good allowed store) : (request.run pool).Steady good := by
  cases request with
  | get id => exact (PoolId.fetch_steady lasting pool id).discard
  | alter id work => exact PoolId.alter_steady lasting pool id admitted
  | insert txn table row => exact (PoolId.insert_steady lasting admitted table).discard
  | delete txn row => exact PoolId.delete_steady lasting
  | evict => exact (PoolId.evict_steady lasting pool).discard

theorem StoreRequest.after_cases (lasting : Page.Lasting good allowed) {request : StoreRequest}
    (admitted : request.Admitted good allowed store) (tidy : store.Tidy) :
    store.Evolves good (request.run.after store) ∨
      (∃ file name primaryKey, request = .register file name primaryKey ∧
        request.run.after store = { store with catalog := store.catalog.register file name primaryKey }) ∨
      request = .clearCatalog ∧ request.run.after store = { store with catalog := .empty } := by
  cases request with
  | openFile path schema pageSize =>
    exact .inl ((Steady.ofDisk (TableFile.openAt_disk path schema pageSize)).discard.leaves tidy).2
  | setFileBytes path bytes => exact .inl ((Steady.ofDisk (Store.setFileBytes_disk path bytes)).leaves tidy).2
  | writePage file page => exact .inl ((Steady.ofDisk (file.writePage_disk page)).leaves tidy).2
  | register file name primaryKey => exact .inr (.inl ⟨file, name, primaryKey, rfl, rfl⟩)
  | clearCatalog => exact .inr (.inr ⟨rfl, rfl⟩)
  | addPool config => exact .inl ((Store.addPool_steady config).discard.leaves tidy).2
  | setPage frame page =>
    left
    cases old_eq : store.frames[frame.index]? with
    | none =>
      have unchanged : store.frames.setIfInBounds frame.index page = store.frames :=
        Array.setIfInBounds_eq_of_size_le (Array.getElem?_eq_none_iff.mp old_eq)
      exact .ofFrames rfl unchanged fun _ _ _ here => here.congr rfl
    | some old => exact .setPage old_eq (admitted old old_eq).1 (admitted old old_eq).2
  | ofPool pool request => exact .inl ((PoolRequest.run_steady lasting admitted).leaves tidy).2
  | fileInsert file pool txn row =>
    have steady : (file.insert pool txn row).Steady good := TableFile.insert_steady lasting admitted
    exact .inl (steady.discard.leaves tidy).2
  | fileDelete file pool txn row =>
    have steady : (file.delete pool txn row).Steady good := TableFile.delete_steady lasting
    exact .inl (steady.discard.leaves tidy).2
  | flushPage pool id => exact .inl ((PoolId.flushPage_steady lasting pool id).discard.leaves tidy).2
  | flushAll pool => exact .inl ((PoolId.flushAll_steady lasting pool).leaves tidy).2
  | flushTxn pool txn => exact .inl ((PoolId.flushTxn_steady lasting pool txn).leaves tidy).2
  | discardPage pool id => exact .inl ((PoolId.discardPage_steady pool id).discard.leaves tidy).2

/-- Every resident page is a page of the file that one of the catalogs had for its table. -/
structure Store.Chronicled (good : Page → Prop) (catalogs : List Catalog) (store : Store) : Prop where
  tidy : store.Tidy
  current : store.catalog ∈ catalogs
  keyed : ∀ catalog ∈ catalogs, catalog.Keyed
  frames : ∀ (frame : FrameId) (page : Page), store.frames[frame.index]? = some page → good page
  residents : ∀ (pool : PoolId) (id : PageId) (frame : FrameId), pool.Resident id frame store →
    ∃ page, store.frames[frame.index]? = some page ∧
      ∃ catalog ∈ catalogs, ∃ file, catalog.file id.table = .ok file ∧ page.Of file id.number

namespace Store.Chronicled

theorem evolves (h : store.Chronicled good catalogs) (tidy : after.Tidy) (evolved : store.Evolves good after) :
    after.Chronicled good (after.catalog :: catalogs) where
  tidy := tidy
  current := List.mem_cons_self
  keyed catalog mem := by
    rcases List.mem_cons.mp mem with rfl | mem
    · rw [evolved.catalog_eq]
      exact h.keyed _ h.current
    · exact h.keyed catalog mem
  frames := evolved.frames_good h.frames
  residents pool id frame resident := by
    rcases evolved.resident pool id frame resident with before | ⟨file, page, found, page_eq, is⟩
    · obtain ⟨page, page_eq, catalog, mem, file, found, is⟩ := h.residents pool id frame before
      obtain ⟨page', page_eq', becomes, -⟩ := evolved.old frame page page_eq
      exact ⟨page', page_eq', catalog, List.mem_cons_of_mem _ mem, file, found, is.becomes becomes⟩
    · exact ⟨page, page_eq, store.catalog, List.mem_cons_of_mem _ h.current, file, found, is⟩

theorem withCatalog (h : store.Chronicled good catalogs) {catalog : Catalog} (keyed : catalog.Keyed) :
    Store.Chronicled good (catalog :: catalogs) { store with catalog } where
  tidy := h.tidy.congr rfl (Nat.le_refl _)
  current := List.mem_cons_self
  keyed other mem := by
    rcases List.mem_cons.mp mem with rfl | mem
    · exact keyed
    · exact h.keyed other mem
  frames := h.frames
  residents pool id frame resident := by
    obtain ⟨page, page_eq, earlier, mem, found⟩ := h.residents pool id frame (resident.congr rfl)
    exact ⟨page, page_eq, earlier, List.mem_cons_of_mem _ mem, found⟩

end Store.Chronicled

theorem Store.Lived.chronicled (lasting : Page.Lasting good allowed) (h : store.Lived good allowed catalogs) :
    store.Chronicled good catalogs := by
  induction h with
  | start disk =>
    refine ⟨(Reached.start disk).tidy, List.mem_singleton_self _, fun catalog mem => ?_, fun _ _ page_eq => ?_,
      fun pool id frame resident => ?_⟩
    · exact List.mem_singleton.mp mem ▸ Catalog.keyed_empty
    · cases page_eq
    · obtain ⟨kept, kept_eq, -⟩ := resident
      cases kept_eq
  | step lived request admitted ih =>
    -- A new catalog changes no page, and other requests change no catalog.
    have tidy := (lived.reached.step request).tidy
    rcases request.after_cases lasting admitted ih.tidy with
      evolved | ⟨file, name, primaryKey, -, after_eq⟩ | ⟨-, after_eq⟩
    · exact ih.evolves tidy evolved
    · rw [after_eq]
      exact ih.withCatalog ((ih.keyed _ ih.current).register file name primaryKey)
    · rw [after_eq]
      exact ih.withCatalog Catalog.keyed_empty

/-! ## Following the catalog -/

namespace PoolId

/-- A page is served just as the catalog of now has it: not at all where its table is not registered, and otherwise with
the id that was asked for and the schema and the size of the pages of the file that is registered. -/
structure FollowsCatalog (pool : PoolId) (id : PageId) (store : Store) : Prop where
  unregistered : ∀ e, store.catalog.file id.table = .error e →
    (pool.fetch id).outcome store = .error (.refused (.tableNotFound id.table))
  served : ∀ frame after, pool.fetch id store = .ok frame after →
    ∃ file page, store.catalog.file id.table = .ok file ∧ after.frames[frame.index]? = some page ∧
      page.Of file id.number

/-- A page that was read under one of the catalogs is served as it is, and written to the file that is registered now.
It is lost to its file where none is. -/
structure ServesCached (pool : PoolId) (catalogs : List Catalog) (id : PageId) (frame : FrameId) (page : Page)
    (store : Store) : Prop where
  page_eq : store.frames[frame.index]? = some page
  id_eq : page.id = id
  origin : ∃ catalog ∈ catalogs, ∃ file, catalog.file id.table = .ok file ∧ page.Of file id.number
  served : ∃ after, pool.fetch id store = .ok frame after ∧ after.frames[frame.index]? = some page
  unregistered : ∀ e, store.catalog.file id.table = .error e → page.isDirty = true →
    writeBack id frame store = .error (.refused e) store
  written : ∀ after, writeBack id frame store = .ok true after →
    ∃ file data offset, store.catalog.file id.table = .ok file ∧ page.encode = .ok data ∧
      (file.pageId id.number).offset file.pageSize = .ok offset ∧
      store.disk.writeAt file.place offset data = .ok after.disk

/-- The schema and the size of a page are those of the file that is registered for its table now. -/
def UpToDate (id : PageId) (page : Page) (store : Store) : Prop :=
  ∃ file, store.catalog.file id.table = .ok file ∧ page.schema = file.schema ∧ page.size = file.pageSize

variable {kept : Pool} {page : Page}

theorem fetch_resident (tidy : store.Tidy) (resident : pool.Resident id frame store) :
    ∃ after, pool.fetch id store = .ok frame after ∧ pool.GivesUp none store after := by
  unfold fetch
  rcases get_cases tidy pool id with ⟨-, missing⟩ | ⟨other, after, run, -, gives, here⟩ | ⟨-, -, -, -, -, -, absent, -⟩
  · exact absurd resident (not_resident missing)
  · rcases gives.stays id frame resident with still | gone
    · obtain rfl := still.frame_eq here
      exact ⟨after, Action.bind_ok run, gives⟩
    · cases gone
  · exact absurd resident (absent frame)

theorem fetch_unregistered (tidy : store.Tidy) (kept_eq : store.pools[pool.index]? = some kept)
    (absent : ∀ frame, ¬pool.Resident id frame store) {e : StoreError}
    (missing : store.catalog.file id.table = .error e) :
    (pool.fetch id).outcome store = .error (.refused e) := by
  unfold Action.outcome fetch
  have looking : (pool.onCache fun cache => cache.get id).Steady fun _ => True := get_steady pool id
  have looked := (looking.leaves tidy).2
  unfold Action.after at looked
  rcases get_cases tidy pool id with ⟨-, missing'⟩ | ⟨frame, after, run, -, -, here⟩ | ⟨after, -, run, -, gives, -⟩
  · cases kept_eq.symm.trans missing'
  · rw [run] at looked
    rcases looked.resident pool id frame here with before | ⟨file, -, found, -⟩
    · exact absurd before (absent frame)
    · cases missing.symm.trans found
  · rw [Action.bind_ok run]
    have missing' : after.catalog.file id.table = .error e := by rw [gives.catalog, missing]
    have failed : pool.load id after = .error (.refused e) after := Action.bind_error (Store.lookUp_error missing')
    dsimp only
    rw [failed]

theorem followsCatalog_of_absent (tidy : store.Tidy) (kept_eq : store.pools[pool.index]? = some kept)
    (absent : ∀ frame, ¬pool.Resident id frame store) : pool.FollowsCatalog id store where
  unregistered e missing := by rw [fetch_unregistered tidy kept_eq absent missing, Catalog.eq_of_file_error missing]
  served frame after run := by
    have fetched := ((fetch_steady Page.lasting_true pool id).leaves tidy).2
    unfold Action.after at fetched
    rw [run] at fetched
    rcases fetch_cases tidy pool id with ⟨failure, -, after', failed, -⟩ | ⟨frame', -, after', run', -, -, here⟩
    · cases run.symm.trans failed
    · cases run.symm.trans run'
      rcases fetched.resident pool id frame here with before | ⟨file, page, found, page_eq, is⟩
      · exact absurd before (absent frame)
      · exact ⟨file, page, found, page_eq, is⟩

theorem servesCached (h : store.Chronicled good catalogs) (resident : pool.Resident id frame store) :
    ∃ page, pool.ServesCached catalogs id frame page store := by
  obtain ⟨page, page_eq, catalog, mem, file, found, is⟩ := h.residents pool id frame resident
  have id_eq : page.id = id := by
    rw [is.id_eq, TableFile.pageId, h.keyed catalog mem id.table file found]
  obtain ⟨after, run, gives⟩ := fetch_resident h.tidy resident
  refine ⟨page, page_eq, id_eq, ⟨catalog, mem, file, found, is⟩, ⟨after, run, gives.frames frame page page_eq⟩,
    fun e missing dirty => ?_, fun after written => ?_⟩
  · rw [writeBack_dirty page_eq dirty]
    exact Action.bind_error (Store.lookUp_error missing)
  · rcases writeBack_cases id frame store with
      ⟨failure, failed⟩ | ⟨page', -, -, run⟩ | ⟨page', now, data, offset, disk, meters, page_eq', found', encode_eq,
        offset_eq, write_eq, run⟩
    · cases written.symm.trans failed
    · cases written.symm.trans run
    · cases written.symm.trans run
      cases page_eq.symm.trans page_eq'
      rw [id_eq] at offset_eq
      exact ⟨now, data, offset, found', encode_eq, offset_eq, write_eq⟩

/-- A pool follows the catalog for a page that it does not have, and for a page that is up to date. -/
theorem followsCatalog_iff_upToDate (h : store.Chronicled good catalogs)
    (kept_eq : store.pools[pool.index]? = some kept) :
    pool.FollowsCatalog id store ↔
      ∀ frame page, pool.Resident id frame store → store.frames[frame.index]? = some page → UpToDate id page store := by
  constructor
  · intro follows frame page resident page_eq
    obtain ⟨after, run, gives⟩ := fetch_resident h.tidy resident
    obtain ⟨file, page', found, page_eq', is⟩ := follows.served frame after run
    cases (gives.frames frame page page_eq).symm.trans page_eq'
    exact ⟨file, found, is.schema_eq, is.size_eq⟩
  · intro current
    by_cases cached : ∃ frame, pool.Resident id frame store
    · obtain ⟨frame, resident⟩ := cached
      obtain ⟨page, serves⟩ := servesCached h resident
      obtain ⟨file, found, schema_eq, size_eq⟩ := current frame page resident serves.page_eq
      obtain ⟨after, run, page_eq⟩ := serves.served
      refine ⟨fun e missing => ?_, fun frame' after' run' => ?_⟩
      · cases missing.symm.trans found
      · cases run.symm.trans run'
        refine ⟨file, page, found, page_eq, ?_, schema_eq, size_eq⟩
        rw [serves.id_eq, TableFile.pageId, h.keyed _ h.current id.table file found]
    · exact followsCatalog_of_absent h.tidy kept_eq fun frame resident => cached ⟨frame, resident⟩

theorem upToDate_of_constant (h : store.Chronicled good catalogs) (resident : pool.Resident id frame store)
    (page_eq : store.frames[frame.index]? = some page)
    (constant : ∀ catalog ∈ catalogs, ∀ file, catalog.file id.table = .ok file →
      ∃ now, store.catalog.file id.table = .ok now ∧ file.schema = now.schema ∧ file.pageSize = now.pageSize) :
    UpToDate id page store := by
  obtain ⟨page', page_eq', catalog, mem, file, found, is⟩ := h.residents pool id frame resident
  cases page_eq.symm.trans page_eq'
  -- The page came from a file that was registered at some time, and all of these files are alike.
  obtain ⟨now, found', schema_eq, size_eq⟩ := constant catalog mem file found
  exact ⟨now, found', is.schema_eq.trans schema_eq, is.size_eq.trans size_eq⟩

/-- Whatever was asked of the store before, a pool follows the catalog for a page just if the page is not resident or is
up to date, as it is if its table has had one file all along. A page that is resident is served and written back as it
is, whatever the catalog says of its table. -/
theorem followsCatalog_iff (lived : store.Lived (fun _ => True) (fun _ => True) catalogs)
    (kept_eq : store.pools[pool.index]? = some kept) (id : PageId) :
    (pool.FollowsCatalog id store ↔
      ∀ frame page, pool.Resident id frame store → store.frames[frame.index]? = some page → UpToDate id page store) ∧
      ((∀ catalog ∈ catalogs, ∀ file, catalog.file id.table = .ok file → ∃ now, store.catalog.file id.table = .ok now ∧
        file.schema = now.schema ∧ file.pageSize = now.pageSize) → pool.FollowsCatalog id store) ∧
      ∀ frame, pool.Resident id frame store → ∃ page, pool.ServesCached catalogs id frame page store := by
  have chronicled := lived.chronicled Page.lasting_true
  refine ⟨followsCatalog_iff_upToDate chronicled kept_eq, fun constant => ?_,
    fun frame resident => servesCached chronicled resident⟩
  rw [followsCatalog_iff_upToDate chronicled kept_eq]
  exact fun frame page resident page_eq => upToDate_of_constant chronicled resident page_eq constant

set_option maxRecDepth 4000 in
/-- A page of a table that was forgotten is still served. -/
theorem followsCatalog_iff_of_cleared :
    ∃ (catalogs : List Catalog) (store : Store) (kept : Pool) (page : Page),
      store.Lived (fun _ => True) (fun _ => True) catalogs ∧ store.pools[0]? = some kept ∧
        store.catalog.file smallFile.id = .error (.tableNotFound smallFile.id) ∧
        ServesCached ⟨0⟩ catalogs (smallFile.pageId 0) ⟨0⟩ page store ∧
        ¬FollowsCatalog ⟨0⟩ (smallFile.pageId 0) store := by
  have start := @Store.Lived.start (fun _ => True) (fun _ => True) default
  have lived := ((((start.step (.openFile "t" ⟨[⟨.int, none⟩]⟩ 9) trivial).step (.register smallFile "t" "")
    trivial).step (.addPool ⟨9, 1⟩) trivial).step (.ofPool ⟨0⟩ (.insert ⟨1⟩ smallFile.id (smallRow 1 none)))
      trivial).step .clearCatalog trivial
  obtain ⟨follows, -, serves⟩ := @followsCatalog_iff _ _ ⟨0⟩ _ lived rfl (smallFile.pageId 0)
  obtain ⟨page, cached⟩ := serves ⟨0⟩ ⟨_, rfl, rfl⟩
  refine ⟨_, _, _, page, lived, rfl, rfl, cached, fun followed => ?_⟩
  obtain ⟨file, found, -⟩ := follows.mp followed ⟨0⟩ page ⟨_, rfl, rfl⟩ cached.page_eq
  cases found

end PoolId

end RowStore
