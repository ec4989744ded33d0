import RowStore.Proofs.Pool.Refinement

/-!
# Pages without a mark are in their files

A resident page that has no mark of a change is in its file as it is. So flushing a pool brings every file up to date:
its bytes are then those of the pages as they are now, and whoever opens the files again finds the same rows.
-/

namespace RowStore

/-! ## Stores that calls lead to -/

/-- The pages of each file can be numbered with 32 bits, with one number to spare. -/
def Store.HasRoom (files : List TableFile) (store : Store) : Prop :=
  ∀ file ∈ files, ∃ bytes, store.disk.read file.place = .ok bytes ∧ bytes.length < UInt32.size * file.pageSize

instance (file : TableFile) (store : Store) :
    Decidable (∃ bytes, store.disk.read file.place = .ok bytes ∧ bytes.length < UInt32.size * file.pageSize) :=
  match store.disk.read file.place with
  | .ok bytes => decidable_of_iff (bytes.length < UInt32.size * file.pageSize) (by simp)
  | .error _ => .isFalse (by simp)

instance (files : List TableFile) (store : Store) : Decidable (store.HasRoom files) :=
  List.decidableBAll _ files

theorem Contents.insert_error {files : List TableFile} {contents : Contents} {table : TableId} {row : Row}
    {failure : Failure} (refused : (contents.insert files table row).2 = .error failure) :
    (contents.insert files table row).1 = contents := by
  unfold insert at refused ⊢
  split at refused
  · rfl
  · split at refused
    · next other => rw [if_pos other]
    · cases refused

namespace PoolId

/-- The stores that calls of a pool lead to, as long as the files can number their pages. A call may fail, and pages may
be given up with their changes. -/
inductive Reaches (pool : PoolId) (files : List TableFile) (start : Store) : Store → Prop where
  | start : Reaches pool files start start
  | call {before : Store} {call : PoolCall} (reached : Reaches pool files start before) (made : call.Made)
      (room : ((pool.perform call).after before).HasRoom files) :
      Reaches pool files start ((pool.perform call).after before)
  | discard {before : Store} (reached : Reaches pool files start before) (id : PageId) :
      Reaches pool files start ((pool.discardPage id).after before)

/-- The page that the pool has under an id. -/
def look (pool : PoolId) (id : PageId) : Action Page := do (← pool.fetch id).page

/-- A resident page without a mark has the bytes that its place in its file has. -/
def InSync (pool : PoolId) (files : List TableFile) (store : Store) : Prop :=
  ∀ id frame page, pool.Resident id frame store → store.frames[frame.index]? = some page → page.dirtier = none →
    ∃ file ∈ files, file.id = id.table ∧ ∃ bytes part, store.disk.read file.place = .ok bytes ∧
      file.pageBytes id.number bytes = .ok part ∧ page.encode.map Bytes.toList = .ok part.toList

/-- The bytes of a file are those of its pages as the pool has them, one after another. -/
def Complete (pool : PoolId) (file : TableFile) (store : Store) : Prop :=
  ∃ (bytes : Bytes) (pages : List (List UInt8)), store.disk.read file.place = .ok bytes ∧ bytes.toList = pages.flatten ∧
    file.pageCount store = .ok (UInt32.ofNat pages.length) store ∧ pages.length < UInt32.size ∧
    ∀ number data, pages[number]? = some data →
      ∃ page, (pool.look (file.pageId (UInt32.ofNat number))).outcome store = .ok page ∧
        page.encode.map Bytes.toList = .ok data

variable {pool : PoolId} {tables : Tables} {capacity : Nat} {saved current : Contents}
  {entries : List (PageId × FrameId)} {store : Store} {file : TableFile} {id : PageId} {rows : PlainPage}

/-! ## The pages of a pool and their bytes -/

theorem Represents.mem_of_resident (h : pool.Represents tables capacity saved current entries store) {frame : FrameId}
    (resident : pool.Resident id frame store) : (id, frame) ∈ entries := (h.keeps.resident_iff id frame).mp resident

theorem encode_map_eq (opened : file.Opened) {number : Nat} (stores : file.Stores number rows)
    (mark : Option TxnId) :
    (((file.page number rows).markDirty mark).encode).map Bytes.toList = .ok (file.image rows) := by
  obtain ⟨data, encode_eq, data_eq⟩ := stores.encode_eq opened mark
  rw [encode_eq, Except.map, data_eq]

theorem Represents.inSync (h : pool.Represents tables capacity saved current entries store) :
    pool.InSync tables.files store := by
  intro id frame page resident frame_eq clean
  obtain ⟨file, mem, table_eq, rows, mark, here, frame_eq', saved_eq⟩ :=
    h.mirrors.entries _ (h.mem_of_resident resident)
  cases frame_eq.symm.trans frame_eq'
  obtain ⟨bytes, part, read_eq, part_ok, part_eq⟩ := h.mirrors.pageBytes_ok mem table_eq (saved_eq clean)
  have here' : (current file.id)[id.number.toNat]? = some rows := by rw [table_eq]; exact here
  refine ⟨file, mem, table_eq, bytes, part, read_eq, part_ok, ?_⟩
  rw [part_eq]
  exact encode_map_eq (tables.opened file mem) (h.mirrors.current_sound file mem _ _ here') mark

theorem Represents.saved_eq (h : pool.Represents tables capacity saved current entries store)
    (clean : ∀ entry ∈ entries, store.IsClean entry.2) (mem : file ∈ tables.files) :
    saved file.id = current file.id := by
  refine List.ext_getElem? fun number => ?_
  by_cases lt : number < (saved file.id).length
  · have number_eq : (UInt32.ofNat number).toNat = number :=
      Shows.toNat_ofNat_of_lt lt (h.mirrors.numbered file mem)
    have page_eq : saved.page? (file.pageId (UInt32.ofNat number)) =
        current.page? (file.pageId (UInt32.ofNat number)) := by
      by_cases kept : file.pageId (UInt32.ofNat number) ∈ entries.map Prod.fst
      · obtain ⟨⟨id, frame⟩, entry_mem, rfl⟩ := List.mem_map.mp kept
        exact h.mirrors.page?_of_clean entry_mem (clean _ entry_mem)
      · exact h.mirrors.others _ kept
    unfold Contents.page? at page_eq
    rw [TableFile.pageId, number_eq] at page_eq
    exact page_eq
  · rw [List.getElem?_eq_none (Nat.le_of_not_lt lt), List.getElem?_eq_none]
    rw [← h.mirrors.counts]
    exact Nat.le_of_not_lt lt

theorem Shows.look_eq (h : pool.Shows tables capacity current store) (mem : file ∈ tables.files)
    (table_eq : file.id = id.table) (here : current.page? id = some rows) :
    ∃ mark, (pool.look id).outcome store = .ok ((file.page id.number.toNat rows).markDirty mark) := by
  obtain ⟨saved, entries, represents⟩ := h
  obtain ⟨frame, saved', entries', store', fetch_eq, represents'⟩ := represents.fetch_ok mem table_eq here
  obtain ⟨mark, frame_eq, -⟩ := represents'.fetched mem table_eq here List.mem_cons_self
  have run : pool.look id store = .ok ((file.page id.number.toNat rows).markDirty mark) store' :=
    (Action.bind_ok fetch_eq).trans (FrameId.page_eq frame_eq)
  exact ⟨mark, by rw [Action.outcome, run]⟩

theorem Represents.complete (h : pool.Represents tables capacity saved current entries store)
    (clean : ∀ entry ∈ entries, store.IsClean entry.2) (mem : file ∈ tables.files)
    (room : (current file.id).length < UInt32.size) : pool.Complete file store := by
  obtain ⟨bytes, read_eq, bytes_eq⟩ := h.mirrors.disk file mem
  refine ⟨bytes, (current file.id).map file.image, read_eq, ?_, ?_, ?_, fun number data here => ?_⟩
  · rw [bytes_eq, h.saved_eq clean mem, List.flatMap_def]
  · rw [List.length_map]
    exact h.mirrors.pageCount_eq mem
  · rw [List.length_map]
    exact room
  · rw [List.getElem?_map] at here
    obtain ⟨rows, rows_eq, rfl⟩ := Option.map_eq_some_iff.mp here
    have number_eq : (UInt32.ofNat number).toNat = number :=
      Shows.toNat_ofNat_of_lt (List.getElem?_eq_some_iff.mp rows_eq).1 (Nat.le_of_lt room)
    have here' : current.page? (file.pageId (UInt32.ofNat number)) = some rows := by
      rw [Contents.page?, TableFile.pageId, number_eq, rows_eq]
    have shows : pool.Shows tables capacity current store := ⟨saved, entries, h⟩
    obtain ⟨mark, look_eq⟩ := shows.look_eq mem rfl here'
    have stores := h.mirrors.current_sound file mem number rows rows_eq
    rw [← number_eq] at stores
    exact ⟨_, look_eq, encode_map_eq (tables.opened file mem) stores mark⟩

/-! ## Flushing twice -/

theorem writeBackAll_clean {list : List (PageId × FrameId)} (clean : ∀ entry ∈ list, store.IsClean entry.2) :
    writeBackAll list store = .ok () store := by
  induction list with
  | nil => rfl
  | cons entry list ih =>
    unfold writeBackAll
    rw [Action.bind_ok (Action.discard_ok (writeBack_clean (clean entry List.mem_cons_self) entry.1))]
    exact ih fun other mem => clean other (List.mem_cons_of_mem _ mem)

theorem Represents.flushAll_clean (h : pool.Represents tables capacity saved current entries store)
    (clean : ∀ entry ∈ entries, store.IsClean entry.2) : pool.flushAll store = .ok () store := by
  obtain ⟨kept, kept_eq, holds, -⟩ := h.keeps
  unfold flushAll
  rw [Action.bind_ok (pool_eq kept_eq), Action.bind_ok (Action.guard_apply_ok holds.entries_eq store),
    writeBackAll_clean clean]

/-! ## Reaching -/

theorem Shows.room (h : pool.Shows tables capacity current store) (room : store.HasRoom tables.files) :
    ∀ file ∈ tables.files, (current file.id).length < UInt32.size := by
  intro file mem
  obtain ⟨saved, entries, represents⟩ := h
  obtain ⟨bytes, read_eq, lt⟩ := room file mem
  obtain ⟨bytes', read_eq', -, length_eq⟩ := represents.mirrors.read_eq mem
  cases read_eq.symm.trans read_eq'
  rw [length_eq, represents.mirrors.counts] at lt
  exact Nat.lt_of_mul_lt_mul_right lt

theorem Shows.hasRoom (h : pool.Shows tables capacity current store)
    (room : ∀ file ∈ tables.files, (current file.id).length < UInt32.size) : store.HasRoom tables.files := by
  intro file mem
  obtain ⟨saved, entries, represents⟩ := h
  obtain ⟨bytes, read_eq, -, length_eq⟩ := represents.mirrors.read_eq mem
  refine ⟨bytes, read_eq, ?_⟩
  rw [length_eq, represents.mirrors.counts]
  exact Nat.mul_lt_mul_of_pos_right (room file mem) (tables.opened file mem).sizes.1

theorem Shows.addressed (h : pool.Shows tables capacity current store) (mem : file ∈ tables.files) :
    (current file.id).length * file.pageSize ≤ Disk.maxFileBytes := by
  obtain ⟨saved, entries, represents⟩ := h
  rw [← represents.mirrors.counts]
  exact represents.mirrors.addressed file mem

theorem Shows.insert_leads (h : pool.Shows tables capacity current store) (txn : TxnId) (table : TableId) {row : Row}
    (made : row.Made) (room : ∀ file ∈ tables.files, (current file.id).length < UInt32.size) :
    Leads (fun _ => pool.Shows tables capacity (current.insert tables.files table row).1)
      (fun failure store => pool.Shows tables capacity current store ∧
        (failure = .refused .fileSystem ∨ (current.insert tables.files table row).2 = .error failure))
      (pool.insert txn table row store) := by
  by_cases fits : (PoolCall.insert txn table row).Fits tables.files current
  · obtain ⟨store', ends, shows'⟩ := h.insert_ok txn table made room fits
    cases outcome_eq : (current.insert tables.files table row).2 with
    | ok stored =>
      rw [outcome_eq] at ends
      change pool.insert txn table row store = .ok stored store' at ends
      rw [ends]
      exact shows'
    | error failure =>
      rw [outcome_eq] at ends
      change pool.insert txn table row store = .error failure store' at ends
      rw [ends]
      exact ⟨Contents.insert_error outcome_eq ▸ shows', .inr rfl⟩
  · simp only [PoolCall.Fits, Classical.not_forall, Nat.not_le] at fits
    obtain ⟨file, mem, rfl, unfit⟩ := fits
    have addressed := h.addressed mem
    simp only [Contents.insert, tables.among_eq mem] at unfit
    by_cases schema_eq : row.schema = file.schema
    · simp only [schema_eq, ne_eq, not_true, ite_false, Contents.setTable_self, PlainTable.put, List.length_modify,
        PlainTable.makeRoom] at unfit
      cases free : (current file.id).free? with
      | some place =>
        simp only [free] at unfit
        omega
      | none =>
        simp only [free, List.length_append, List.length_singleton] at unfit
        obtain ⟨store', insert_eq, shows'⟩ := h.insert_unfit txn mem schema_eq (room file mem) free unfit
        rw [insert_eq]
        exact ⟨shows', .inl rfl⟩
    · simp only [schema_eq, ne_eq, not_false_eq_true, ite_true] at unfit
      omega

/-- A call of which the outcome is not asked leaves plain tables behind as well, whether the file could take a page that
it needed or not. -/
theorem Shows.perform_any (h : pool.Shows tables capacity current store) {call : PoolCall} (made : call.Made)
    (room : ∀ file ∈ tables.files, (current file.id).length < UInt32.size) :
    ∃ current', pool.Shows tables capacity current' ((pool.perform call).after store) := by
  cases call with
  | insert txn table row =>
    have inserted := h.insert_leads txn table made room
    unfold Action.after
    cases run : pool.insert txn table row store with
    | ok stored store' =>
      rw [run] at inserted
      have performed : pool.perform (.insert txn table row) store = .ok (.stored stored) store' := Action.bind_ok run
      rw [performed]
      exact ⟨_, inserted⟩
    | error failure store' =>
      rw [run] at inserted
      have performed : pool.perform (.insert txn table row) store = .error failure store' := Action.bind_error run
      rw [performed]
      exact ⟨_, inserted.1⟩
  | _ =>
    obtain ⟨store', ends, shows'⟩ := h.perform_ok made room trivial
    exact ⟨_, ends.eq.2 ▸ shows'⟩

theorem Reaches.shows {start : Store} (reached : pool.Reaches tables.files start store)
    (h : pool.Shows tables capacity (fun _ => []) start) :
    ∃ current, pool.Shows tables capacity current store ∧
      ∀ file ∈ tables.files, (current file.id).length < UInt32.size := by
  induction reached with
  | start => exact ⟨_, h, fun _ _ => by decide⟩
  | call _ made room ih =>
    obtain ⟨current, shows, room₁⟩ := ih
    obtain ⟨current', shows'⟩ := shows.perform_any made room₁
    exact ⟨current', shows', shows'.room room⟩
  | discard _ id ih =>
    obtain ⟨current, ⟨saved, entries, represents⟩, room₁⟩ := ih
    obtain ⟨resident, entries', store', discard_eq, represents'⟩ := represents.discardPage_ok id
    have counts : ∀ table, (current.revert saved id table).length = (current table).length := fun table => by
      rw [← represents'.mirrors.counts, represents.mirrors.counts]
    refine ⟨current.revert saved id, ?_, fun file mem => by rw [counts]; exact room₁ file mem⟩
    rw [Action.after, discard_eq]
    exact ⟨saved, entries', represents'⟩

/-! ## The pool and its files -/

/-- However a store was reached from opened files without pages that can be told apart: every resident page without a
mark is in its file as it is. Flushing the pool succeeds, leaves no page with a mark and every file with the bytes of
its pages as they are now, and changes nothing if it is done again. A pool of its own over the same files, opened again,
finds the same rows at the same places. The files must be able to number their pages wherever the calls lead. -/
theorem inSync_of_reaches {plans : List TablePlan} {config : Config} {disk : Disk} {files : List TableFile}
    {start : Store} (setUp : Store.setUp plans config (.ofDisk disk) = .ok (files, pool) start)
    (ids : (files.map TableFile.id).Nodup) (names : (plans.map TablePlan.name).Nodup)
    (blank : ∀ file ∈ files, ∃ bytes, start.disk.read file.place = .ok bytes ∧ bytes.length = 0)
    (reached : pool.Reaches files start store) :
    pool.InSync files store ∧ ∃ flushed, pool.flushAll store = .ok () flushed ∧
      (∀ id frame, pool.Resident id frame flushed → flushed.IsClean frame) ∧
      (∀ file ∈ files, pool.Complete file flushed) ∧ pool.flushAll flushed = .ok () flushed ∧
      ∀ config' : Config, config'.check = .ok () → config'.poolPages < Cache.capacityLimit →
        ∃ pool' again, Store.setUp plans config' (.ofDisk flushed.disk) = .ok (files, pool') again ∧
          ∀ file ∈ files, ∃ rows, (pool.scan file.id).outcome flushed = .ok rows ∧
            (pool'.scan file.id).outcome again = .ok rows := by
  obtain ⟨tables, rfl, rfl, fresh⟩ := shows_of_setUp setUp ids names blank
  obtain ⟨current, ⟨saved, entries, represents⟩, room⟩ := reached.shows fresh
  obtain ⟨saved', flushed, flush_eq, represents', clean⟩ := represents.flushAll_ok
  refine ⟨represents.inSync, flushed, flush_eq, fun id frame resident => clean _ (represents'.mem_of_resident resident),
    fun file mem => represents'.complete clean mem (room file mem), represents'.flushAll_clean clean,
    fun config' valid small => ?_⟩
  have kept : ∀ file ∈ tables.files, ∃ bytes, flushed.disk.read file.place = .ok bytes ∧
      bytes.toList = (current file.id).flatMap file.image := fun file mem => by
    rw [← represents'.saved_eq clean mem]
    exact represents'.mirrors.disk file mem
  obtain ⟨pool', again, setUp', disk_eq⟩ := Store.setUp_again setUp represents'.mirrors.paths
    (fun file mem => (kept file mem).imp fun _ h => h.1) valid small
  have shows : pool.Shows tables config.poolPages current flushed := ⟨saved', entries, represents'⟩
  obtain ⟨tables', files_eq, -, represents''⟩ := Store.of_setUp setUp' ids names current (by rw [disk_eq]; exact kept)
    (fun file mem => Nat.le_of_lt (room file mem)) (fun file mem => shows.addressed mem)
    represents'.mirrors.current_sound
  refine ⟨pool', again, setUp', fun file mem => ⟨(current file.id).rows, ?_, ?_⟩⟩
  · obtain ⟨_, ends, _⟩ := shows.scan_ok file.id room
    rw [ends.eq.1, Contents.scan, tables.among_eq mem]
  · have shows' : pool'.Shows tables' config'.poolPages current again := ⟨current, [], represents''⟩
    obtain ⟨_, ends, _⟩ := shows'.scan_ok file.id (files_eq ▸ room)
    rw [ends.eq.1, Contents.scan, tables'.among_eq (files_eq ▸ mem)]

/-- A row is stored, and its page is given up before it is written. -/
theorem inSync_of_reaches_of_discarding :
    ∃ start store, Store.setUp [smallPlan] ⟨9, 1⟩ (.ofDisk default) = .ok ([smallFile], ⟨0⟩) start ∧
      store = (PoolId.discardPage ⟨0⟩ (smallFile.pageId 0)).after
        ((PoolId.perform ⟨0⟩ (.insert ⟨1⟩ smallFile.id (smallRow 1 none))).after start) ∧
      PoolId.InSync ⟨0⟩ [smallFile] store ∧ ∃ flushed, PoolId.flushAll ⟨0⟩ store = .ok () flushed ∧
        PoolId.Complete ⟨0⟩ smallFile flushed := by
  obtain ⟨start, setUp, read_eq⟩ := setUp_small
  have blank : ∀ file ∈ [smallFile], ∃ bytes, start.disk.read file.place = .ok bytes ∧ bytes.length = 0 := by
    intro file mem
    cases List.mem_singleton.mp mem
    exact ⟨_, read_eq, rfl⟩
  have made : (PoolCall.insert ⟨1⟩ smallFile.id (smallRow 1 none)).Made := made_smallRow 1 none
  have room : ((PoolId.perform ⟨0⟩ (.insert ⟨1⟩ smallFile.id (smallRow 1 none))).after start).HasRoom [smallFile] := by
    obtain ⟨tables, files_eq, -, fresh⟩ := shows_of_setUp setUp (List.nodup_singleton _) (List.nodup_singleton _) blank
    have fits : (PoolCall.insert ⟨1⟩ smallFile.id (smallRow 1 none)).Fits tables.files fun _ => [] := by
      rw [files_eq]
      intro file mem _
      cases List.mem_singleton.mp mem
      decide +kernel
    obtain ⟨store', ends, shows'⟩ := fresh.perform_ok made (fun _ _ => by decide) fits
    rw [ends.eq.2, ← files_eq]
    refine shows'.hasRoom fun file mem => ?_
    rw [files_eq] at mem ⊢
    cases List.mem_singleton.mp mem
    decide +kernel
  have reached := Reaches.discard (.call .start made room) (smallFile.pageId 0)
  obtain ⟨inSync, flushed, flush_eq, -, complete, -⟩ :=
    inSync_of_reaches setUp (List.nodup_singleton _) (List.nodup_singleton _) blank reached
  exact ⟨start, _, setUp, rfl, inSync, flushed, flush_eq, complete _ (List.mem_singleton_self _)⟩

end PoolId

end RowStore
