import RowStore.Proofs.Pool.InSync
import RowStore.Proofs.Pool.Marks
import RowStore.Proofs.Pool.Requests

/-!
# Flushing a transaction

A transaction is flushed by its marks. So its flush writes the pages that it changed last, and leaves in its file as it
was every page that another transaction changed after it.
-/

namespace RowStore

/-! ## Pages that were changed -/

namespace LastChanges

/-- Every page that was changed is one of its table. -/
def Within (last : LastChanges) (contents : Contents) : Prop :=
  ∀ id txn, last id = some txn → id.number.toNat < (contents id.table).length

variable {last : LastChanges} {contents contents' : Contents} {files : List TableFile}

theorem within_none (contents : Contents) : none.Within contents := by
  intro id txn changed
  cases changed

theorem Within.mono (h : last.Within contents) (le : ∀ table, (contents table).length ≤ (contents' table).length) :
    last.Within contents' :=
  fun id txn changed => Nat.lt_of_lt_of_le (h id txn changed) (le id.table)

theorem Within.note (h : last.Within contents) {row : Row} {id : RowId} (id_eq : row.id = some id)
    (here : id.page.number.toNat < (contents id.page.table).length) (txn : TxnId) :
    (last.note txn row).Within contents := by
  intro other by_txn changed
  by_cases same : other = id.page
  · rw [same]
    exact here
  · simp only [LastChanges.note, id_eq, Function.update_of_ne same] at changed
    exact h other by_txn changed

end LastChanges

theorem PlainTable.lt_of_free? {table : PlainTable} {number slot : Nat} (free : table.free? = some (number, slot)) :
    number < table.length := by
  induction table generalizing number with
  | nil => cases free
  | cons page pages ih =>
    unfold PlainTable.free? at free
    split at free
    · cases free
      exact Nat.zero_lt_succ _
    · obtain ⟨⟨ahead, slot'⟩, free', place_eq⟩ := Option.map_eq_some_iff.mp free
      cases place_eq
      exact Nat.succ_lt_succ (ih free')

theorem PlainTable.makeRoom_lt (file : TableFile) (table : PlainTable) :
    (table.makeRoom file).2.1 < (table.makeRoom file).1.length := by
  unfold makeRoom
  split
  · next free => exact lt_of_free? free
  · simp

namespace Contents

variable {files : List TableFile} {contents : Contents}

theorem insert_stored {table : TableId} {row stored : Row} (fit : (contents.insert files table row).1.Fit files)
    (stored_eq : (contents.insert files table row).2 = .ok stored) :
    ∃ id, stored.id = some id ∧
      id.page.number.toNat < ((contents.insert files table row).1 id.page.table).length := by
  unfold insert at fit stored_eq ⊢
  cases among_eq : TableFile.among files table with
  | error e =>
    rw [among_eq] at stored_eq
    cases stored_eq
  | ok file =>
    obtain ⟨mem, rfl⟩ := TableFile.mem_of_among among_eq
    simp only [among_eq] at fit stored_eq ⊢
    split at stored_eq
    · cases stored_eq
    · next same =>
      cases stored_eq
      rw [if_neg same] at fit ⊢
      refine ⟨_, rfl, ?_⟩
      have room := (fit file mem).1
      have lt := PlainTable.makeRoom_lt file (contents file.id)
      simp only [setTable_self, PlainTable.put, List.length_modify] at room
      simp only [TableFile.rowId, TableFile.pageId, setTable_self, PlainTable.put, List.length_modify]
      rw [PoolId.Shows.toNat_ofNat_of_lt lt (Nat.le_of_lt room)]
      exact lt

theorem delete_removed {row : Row} (removed : (contents.delete files row).2 = .ok ()) :
    ∃ id, row.id = some id ∧ id.page.number.toNat < (contents id.page.table).length := by
  unfold delete at removed
  split at removed
  · cases removed
  · next page slot id_eq =>
    split at removed
    · cases removed
    · split at removed
      · cases removed
      · next slots here => exact ⟨_, id_eq, (List.getElem?_eq_some_iff.mp here).1⟩

end Contents

namespace LastChanges.Within

variable {last : LastChanges} {contents : Contents} {files : List TableFile}

theorem perform (h : last.Within contents) {call : PoolCall} (fit : (contents.perform files call).1.Fit files) :
    (last.perform call (contents.perform files call).2).Within (contents.perform files call).1 := by
  have h' := h.mono (Contents.length_perform_le files contents call)
  cases call with
  | insert txn table row =>
    cases stored_eq : (contents.insert files table row).2 with
    | error failure =>
      simp only [Contents.perform, Prod.map, stored_eq]
      exact h'
    | ok stored =>
      obtain ⟨id, id_eq, here⟩ := Contents.insert_stored fit stored_eq
      simp only [Contents.perform, Prod.map, stored_eq]
      exact h'.note id_eq here txn
  | delete txn row =>
    cases removed : (contents.delete files row).2 with
    | error failure =>
      simp only [Contents.perform, Prod.map, removed]
      exact h'
    | ok _ =>
      obtain ⟨id, id_eq, here⟩ := Contents.delete_removed removed
      have le := Contents.length_perform_le files contents (.delete txn row) id.page.table
      simp only [Contents.perform, Prod.map, removed]
      exact h'.note id_eq (Nat.lt_of_lt_of_le here le) txn
  | get _ | flushPage _ | flushAll | flushTxn _ | evict | scan _ => exact h'

theorem run (h : last.Within contents) {calls : List PoolCall} (fit : (Contents.run files contents calls).2.Fit files) :
    (last.run calls (Contents.run files contents calls).1).Within (Contents.run files contents calls).2 := by
  induction calls generalizing last contents with
  | nil => exact h
  | cons call calls ih => exact ih (h.perform (Contents.Fit.of_run fit)) fit

end LastChanges.Within

/-! ## The marks of a new pool -/

theorem Store.openTables_orderly (plans : List TablePlan) : (Store.openTables plans).Orderly := by
  induction plans with
  | nil => exact .ofLooks fun store => .inr ⟨[], rfl⟩
  | cons plan plans ih =>
    apply Action.Orderly.bind (TableFile.openAt_orderly plan.path plan.schema plan.pageSize)
    intro file
    apply Action.Orderly.bind (StoreRequest.register file plan.name plan.primaryKey).run_orderly
    intro _
    exact .bind ih fun _ => .ofLooks fun store => .inr ⟨_, rfl⟩

theorem Store.tidy_of_setUp {plans : List TablePlan} {config : Config} {disk : Disk} {files : List TableFile}
    {pool : PoolId} {store : Store} (h : Store.setUp plans config (.ofDisk disk) = .ok (files, pool) store) :
    store.Tidy := by
  have orderly : (Store.setUp plans config).Orderly :=
    .bind (openTables_orderly plans) fun _ => .bind (addPool_orderly config) fun _ =>
      .ofLooks fun store => .inr ⟨_, rfl⟩
  have tidy := orderly (.ofDisk disk) (Store.Reached.start disk).tidy
  rw [Action.after, h] at tidy
  exact tidy

namespace PoolId

variable {pool : PoolId} {tables : Tables} {capacity : Nat} {saved current : Contents}
  {entries : List (PageId × FrameId)} {store : Store} {last : LastChanges}

theorem Represents.marks (h : pool.Represents tables capacity saved current [] store) (last : LastChanges)
    (tidy : store.Tidy) : pool.Marks last store where
  tidy := tidy
  catalog := by
    intro table file found
    rw [h.mirrors.catalog_eq] at found
    exact (TableFile.mem_of_among found).2
  pages := by
    intro id frame page resident
    cases h.mem_of_resident resident

theorem Represents.resident (h : pool.Represents tables capacity saved current entries store) {id : PageId}
    {frame : FrameId} (mem : (id, frame) ∈ entries) : pool.Resident id frame store := by
  obtain ⟨kept, kept_eq, holds, -⟩ := h.keeps
  have peek_eq := holds.peek_eq id
  rw [Recency.value?_of_mem h.mirrors.ids mem] at peek_eq
  exact ⟨kept, kept_eq, peek_eq⟩

/-! ## What the flush writes -/

theorem Represents.flushTxn_saved (h : pool.Represents tables capacity saved current entries store)
    (marks : pool.Marks last store) (txn : TxnId) :
    ∃ saved' flushed, pool.flushTxn txn store = .ok () flushed ∧
      pool.Represents tables capacity saved' current entries flushed ∧
      ∀ id, saved'.page? id = if last id = some txn then current.page? id else saved.page? id := by
  obtain ⟨saved', flushed, flush_eq, represents, unmarked, fades, untouched⟩ := h.flushTxn_ok txn
  refine ⟨saved', flushed, flush_eq, represents, ?_⟩
  intro id
  split
  · next mine =>
    by_cases kept : id ∈ entries.map Prod.fst
    · obtain ⟨⟨_, frame⟩, mem, rfl⟩ := List.mem_map.mp kept
      obtain ⟨file, file_mem, table_eq, rows, mark, here, frame_eq, clean⟩ := represents.mirrors.entries _ mem
      -- A mark that is left would be that of `txn`, and `txn` has no marks left.
      have faded : mark = none := by
        cases mark with
        | none => rfl
        | some other =>
          obtain ⟨page, page_eq, marked⟩ := fades other frame ⟨_, frame_eq, rfl⟩
          have changed := (marks.pages _ frame page (h.resident mem) page_eq).2 other marked
          cases mine.symm.trans changed
          exact absurd ⟨_, frame_eq, rfl⟩ (unmarked _ mem)
      rw [clean faded, here]
    · exact represents.mirrors.others id kept
  · next others =>
    apply untouched
    rintro frame mem ⟨page, frame_eq, marked⟩
    exact others ((marks.pages id frame page (h.resident mem) frame_eq).2 txn marked)

end PoolId

theorem Mirrors.readPage_outcome {tables : Tables} {saved current : Contents} {held : List (PageId × FrameId)}
    {store : Store} (h : Mirrors tables saved current held store) {file : TableFile} (mem : file ∈ tables.files)
    (number : UInt32) :
    (file.readPage number).outcome store =
      match saved.page? (file.pageId number) with
      | some rows => .ok (file.page number.toNat rows)
      | none => .error (file.missing number) := by
  cases here : saved.page? (file.pageId number) with
  | some rows =>
    obtain ⟨meters, read_eq⟩ := h.readPage_ok mem rfl here
    have ends : (file.readPage number).Ends store (.ok (file.page number.toNat rows)) { store with meters } := read_eq
    exact ends.eq.1
  | none =>
    have missing := h.readPage_missing mem rfl here
    have ends : (file.readPage number).Ends store (.error (file.missing number)) store := missing
    exact ends.eq.1

namespace PoolId

variable {plans : List TablePlan} {config : Config} {disk : Disk} {files : List TableFile} {pool : PoolId}
  {store : Store} {initial : Contents} {calls : List PoolCall}

/-- After any calls, by any number of transactions on opened files with the pages `initial`, the flush of a transaction
succeeds. A page that the transaction changed last has the rows of the plain table in its file then. Any other page has
in its file what it had before the flush, also where the transaction changed it and another one did so later. The files
must be able to take the pages of the plain tables. -/
theorem flushTxn_writes_last_changes
    (setUp : Store.setUp plans config (.ofDisk disk) = .ok (files, pool) store)
    (ids : (files.map TableFile.id).Nodup) (names : (plans.map TablePlan.name).Nodup)
    (stored : ∀ file ∈ files, ∃ bytes, store.disk.read file.place = .ok bytes ∧
      bytes.toList = (initial file.id).flatMap file.image)
    (sound : ∀ file ∈ files, ∀ number rows, (initial file.id)[number]? = some rows → file.Stores number rows)
    (made : ∀ call ∈ calls, call.Made) (fit : (Contents.run files initial calls).2.Fit files) (txn : TxnId) :
    ∃ flushed, pool.flushTxn txn (pool.run calls store).2 = .ok () flushed ∧
      ∀ file ∈ files, ∀ number,
        (LastChanges.none.run calls (pool.run calls store).1 (file.pageId number) = some txn →
          ∃ rows page, (Contents.run files initial calls).2.page? (file.pageId number) = some rows ∧
            (file.readPage number).outcome flushed = .ok page ∧ page.rows = rows.rows) ∧
        (LastChanges.none.run calls (pool.run calls store).1 (file.pageId number) ≠ some txn →
          (file.readPage number).outcome flushed = (file.readPage number).outcome (pool.run calls store).2) := by
  have fit₀ := Contents.Fit.of_run fit
  obtain ⟨tables, rfl, -, represents₀⟩ := Store.of_setUp setUp ids names initial stored
    (fun file mem => Nat.le_of_lt (fit₀ file mem).1) (fun file mem => (fit₀ file mem).2) sound
  obtain ⟨store', run_eq, saved, entries, represents⟩ := Shows.run_ok ⟨_, [], represents₀⟩ made fit
  have marks := run_marks calls (represents₀.marks .none (Store.tidy_of_setUp setUp))
  have within := (LastChanges.within_none initial).run fit
  rw [run_eq] at marks ⊢
  obtain ⟨saved', flushed, flush_eq, represents', saved_eq⟩ := represents.flushTxn_saved marks txn
  refine ⟨flushed, flush_eq, ?_⟩
  intro file mem number
  rw [represents'.mirrors.readPage_outcome mem, represents.mirrors.readPage_outcome mem, saved_eq]
  constructor
  · intro mine
    have here := List.getElem?_eq_getElem (within _ txn mine)
    refine ⟨_, file.page number.toNat _, here, ?_, TableFile.rows_page none⟩
    rw [if_pos mine, Contents.page?, here]
  · intro others
    rw [if_neg others]

/-- A row is stored by the first transaction, and another one is stored on the same page and removed by the second. -/
def sharedCalls : List PoolCall :=
  [.insert ⟨1⟩ smallFile.id (smallRow 1 none), .insert ⟨2⟩ smallFile.id (smallRow 2 none),
    .delete ⟨2⟩ (smallRow 2 (smallFile.rowId 0 1))]

/-- The flush of the first transaction does not write its row. That of the second does. -/
theorem flushTxn_writes_last_changes_of_sharing :
    ∃ store first second, Store.setUp [smallPlan] ⟨9, 1⟩ (.ofDisk default) = .ok ([smallFile], ⟨0⟩) store ∧
      PoolId.flushTxn ⟨0⟩ ⟨1⟩ (PoolId.run ⟨0⟩ sharedCalls store).2 = .ok () first ∧
      ((smallFile.readPage 0).outcome first).map Page.rows = .ok [] ∧
      PoolId.flushTxn ⟨0⟩ ⟨2⟩ (PoolId.run ⟨0⟩ sharedCalls store).2 = .ok () second ∧
      ((smallFile.readPage 0).outcome second).map Page.rows = .ok [smallRow 1 (smallFile.rowId 0 0)] := by
  have setUp : Store.setUp [smallPlan] ⟨9, 1⟩ (.ofDisk default) =
      .ok ([smallFile], ⟨0⟩) ((Store.setUp [smallPlan] ⟨9, 1⟩).after (.ofDisk default)) := rfl
  have made : ∀ call ∈ sharedCalls, call.Made := by simp [sharedCalls, PoolCall.Made, made_smallRow]
  have fit : (Contents.run [smallFile] (fun _ => []) sharedCalls).2.Fit [smallFile] := by
    intro file mem
    cases List.mem_singleton.mp mem
    exact ⟨by decide +kernel, by decide +kernel⟩
  have flush := flushTxn_writes_last_changes setUp (List.nodup_singleton _) (List.nodup_singleton _) ?stored ?sound made
    fit
  case stored =>
    intro file mem
    cases List.mem_singleton.mp mem
    exact ⟨.empty, rfl, rfl⟩
  case sound =>
    intro file mem number rows here
    cases here
  obtain ⟨first, first_eq, written⟩ := flush ⟨1⟩
  obtain ⟨second, second_eq, written'⟩ := flush ⟨2⟩
  have mem : smallFile ∈ [smallFile] := List.mem_singleton_self smallFile
  have kept := (written smallFile mem 0).2 (by decide +kernel)
  obtain ⟨rows, page, here, read_eq, rows_eq⟩ := (written' smallFile mem 0).1 (by decide +kernel)
  have current : (Contents.run [smallFile] (fun _ => []) sharedCalls).2.page? (smallFile.pageId 0) =
      some [some (smallRow 1 (smallFile.rowId 0 0)), none] := by decide +kernel
  cases here.symm.trans current
  refine ⟨_, first, second, setUp, first_eq, ?_, second_eq, ?_⟩
  · rw [kept]
    decide +kernel
  · rw [read_eq, Except.map, rows_eq]
    rfl

end PoolId

end RowStore
