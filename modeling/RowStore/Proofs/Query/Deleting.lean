import RowStore.Proofs.Pool.Removals
import RowStore.Proofs.Query.Counting

/-!
# Removing what a query selects

The rows are removed while the scan that selects them still goes on. A row is gone from the tables only after its page
was copied, so exactly the rows that are selected are removed.
-/

namespace RowStore

variable {pool : PoolId} {tables : Tables} {capacity : Nat} {contents : Contents} {store : Store} {file : TableFile}
  {rows given rest : List Row} {row : Row} {op : Operator} {table : TableId}

/-! ## One removal -/

theorem Contents.id_mem_without (nodup : (rows.map Row.id).Nodup)
    (sublist : (rows.map Row.id).Sublist ((contents table).rows.map Row.id)) (sum_eq : given ++ row :: rest = rows) :
    row.id ∈ (contents.without table given table).rows.map Row.id := by
  subst sum_eq
  rw [List.map_append] at nodup
  have row_mem : row.id ∈ (row :: rest).map Row.id := List.mem_map_of_mem List.mem_cons_self
  obtain ⟨stored, stored_mem, same_id⟩ := List.mem_map.mp
    (sublist.subset (by rw [List.map_append]; exact List.mem_append_right _ row_mem))
  have apart : row.id ∉ given.map Row.id := fun given_mem => (List.nodup_append.mp nodup).2.2 _ given_mem _ row_mem rfl
  rw [Contents.rows_without, ← same_id]
  exact List.mem_map_of_mem (List.mem_filter.mpr ⟨stored_mem, decide_eq_true (same_id ▸ apart)⟩)

namespace Operator

theorem Offers.remove_ok (offers : op.Offers pool tables.files contents rows) (selects : op.SelectsFrom file.id)
    (mem : file ∈ tables.files) (fit : contents.Fit tables.files)
    (sublist : (rows.map Row.id).Sublist ((contents file.id).rows.map Row.id)) (txn : TxnId)
    (shows : pool.Shows tables capacity contents store) :
    Leads (fun (n : Int32) store =>
        n.toInt = rows.length ∧ pool.Shows tables capacity (contents.without file.id rows) store)
      (fun failure _ => failure = .aborted .wordOverflow ∧ Int32.maxValue.toInt < rows.length)
      (op.feed (remove pool txn) 0 store) := by
  have sound := shows.sound
  have nodup : (rows.map Row.id).Nodup := sublist.nodup (sound.nodup_ids mem (Nat.le_of_lt (fit file mem).1))
  have room : ∀ given, ∀ other ∈ tables.files, (contents.without file.id given other.id).length < UInt32.size := by
    intro given other other_mem
    rw [Contents.length_without]
    exact (fit other other_mem).1
  let At (given : List Row) (store : Store) : Prop :=
    pool.Shows tables capacity (contents.without file.id given) store
  have changed : ∀ {given row rest store}, given ++ row :: rest = rows → At given store →
      ∃ store', pool.delete txn row store = .ok () store' ∧ At (given ++ [row]) store' := by
    intro given row rest store sum_eq here
    obtain ⟨store', ends, here'⟩ := PoolId.Shows.delete_ok here txn row (room given)
    have there := Contents.id_mem_without nodup sublist sum_eq
    rw [(sound.without file.id given).delete_ok mem (Nat.le_of_lt (room given file mem)) there,
      ← Contents.without_append] at here' ends
    exact ⟨store', ends, here'⟩
  -- The rows of the pages ahead have still to be given, so these pages are whole.
  have ahead : ∀ source, op = .scan source → ∀ {n given store}, n < UInt32.size →
      given ++ (PlainTable.rows ((contents source.table).drop n)).map source.present = rows → At given store →
      ∃ store', TableCursor.pageRows? pool source.cursor.file (UInt32.ofNat n) store =
          .ok ((contents source.table)[n]?.map PlainPage.rows) store' ∧ At given store' := by
    rintro source rfl n given store lt sum_eq here
    obtain ⟨-, source_mem, table_eq, -⟩ := offers
    have selects : source.table = file.id := selects
    rw [selects] at sum_eq table_eq ⊢
    obtain ⟨store', rows_eq, here'⟩ := PoolId.Shows.pageRows?_ok here source_mem (room given _ source_mem) lt
    rw [← table_eq, Contents.page_without] at rows_eq
    · exact ⟨store', rows_eq, here'⟩
    · intro page page_eq row row_mem given_mem
      rw [← sum_eq, PlainTable.rows_drop page_eq, List.map_append, List.nodup_append] at nodup
      refine nodup.2.2 _ given_mem _ ?_ rfl
      rw [← source.id_present row]
      exact List.mem_map_of_mem (List.mem_map_of_mem (List.mem_append_left _ row_mem))
  have start : At [] store := by
    unfold At
    rw [Contents.without_nil]
    exact shows
  exact offers.feed_count (fun other other_mem => (fit other other_mem).1) changed ahead start

/-! ## Removing all rows -/

/-- A query that selects rows of a table has them removed. They are counted, and the table is left without them and with
as many pages as before. Where no rows are given, opening it fails and nothing is removed. The count has 32 bits, and
where it does not go so far, opening it fails as well. -/
theorem openAll_deleted {files : List TableFile} (filled : pool.Filled files contents store)
    (query : op.ReadsOnly pool store) (selects : op.SelectsFrom table) (txn : TxnId) {run : Run Unit}
    (run_eq : (op.deleted pool txn).openAll store = run) :
    (∃ rows, op.Gives contents rows ∧ run.Counts rows.length ∧
        pool.Answers files (contents.without table rows) run.store) ∨
      ((∀ rows, ¬op.Gives contents rows) ∧ (∃ failure, run.outcome = .error failure) ∧
        pool.Answers files contents run.store) ∨
      ∃ rows, op.Gives contents rows ∧ Int32.maxValue.toInt < rows.length ∧
        run.outcome = .error (.aborted .wordOverflow) := by
  subst run_eq
  have fit := filled.fit
  obtain ⟨tables, capacity, rfl, shows⟩ := filled.shows
  have small : ∀ file ∈ tables.files, (contents file.id).length < UInt32.size := fun file mem => (fit file mem).1
  unfold deleted openAll
  dsimp only
  obtain ⟨shows', ⟨rows, gives, opened, offers⟩ | ⟨⟨failure, failed⟩, none⟩⟩ :=
    query.opens shows.lookUp_eq shows.sound (PoolId.Shows.serves_all small) shows
  · obtain ⟨file, mem, rfl⟩ := query.registered shows.lookUp_eq selects
    have removed := offers.remove_ok (selects.openAll store) mem fit (selects.sublist gives) txn shows'
    rcases Run.feed_leads opened removed with ⟨n, fed, count_eq, shows''⟩ | ⟨failure, fed, rfl, full⟩
    · refine .inl ⟨rows, gives, Run.counts_deleted fed count_eq .., ?_⟩
      rw [Run.collectCount_ok fed]
      exact shows''.answers
    · rw [Run.collectCount_error fed]
      exact .inr (.inr ⟨rows, gives, full, rfl⟩)
  · rw [Run.collectCount_error (congrArg Run.outcome (Run.feed_error failed _ _)), Run.feed_error failed]
    exact .inr (.inl ⟨none, ⟨failure, rfl⟩, shows'.answers⟩)

/-- Three rows on two pages are removed while a scan goes over them, and the pool can keep one page. -/
theorem openAll_deleted_of_three :
    (((smallScan none).deleted ⟨0⟩ ⟨3⟩).openAll PoolId.smallStore).Counts 3 ∧
      PoolId.Answers ⟨0⟩ [smallFile]
        (PoolId.smallContents.without smallFile.id (PoolId.smallContents smallFile.id).rows)
        (((smallScan none).deleted ⟨0⟩ ⟨3⟩).openAll PoolId.smallStore).store := by
  have opened : (((smallScan none).deleted ⟨0⟩ ⟨3⟩).openAll PoolId.smallStore).outcome = .ok () := by decide +kernel
  have count_eq : (PoolId.smallContents smallFile.id).rows.length = 3 := by decide +kernel
  have selects : (smallScan none).SelectsFrom smallFile.id := rfl
  rcases openAll_deleted PoolId.filled_small (readsOnly_smallScan none) selects ⟨3⟩ rfl with
    ⟨rows, gives, counts, answers⟩ | ⟨-, ⟨failure, failed⟩, -⟩ | ⟨rows, -, -, failed⟩
  · have rows_eq : rows = (PoolId.smallContents smallFile.id).rows := gives.trans (List.map_id _)
    rw [rows_eq] at counts answers
    exact ⟨count_eq ▸ counts, answers⟩
  · cases failed.symm.trans opened
  · cases failed.symm.trans opened

end Operator

end RowStore
