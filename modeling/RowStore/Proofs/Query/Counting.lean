import RowStore.Proofs.Query.ReadOnly

/-!
# Changes that are counted

An operator that changes tables carries out one change for each row below it, and counts. Here the query below selects
rows of one table. What is left to show of a change is what one of them does, and that a scan still finds the pages
ahead of it as they were.
-/

namespace RowStore

/-! ## Selections -/

/-- The query gives some of the rows of a table. -/
def Operator.SelectsFrom (table : TableId) : Operator → Prop
  | .scan source => source.table = table
  | .filter _ child _ => child.SelectsFrom table
  | .values _ | .aggregate .. | .insert .. | .delete .. => False

theorem TableScan.id_present (source : TableScan) (row : Row) : (source.present row).id = row.id := by
  unfold present
  split <;> rfl

namespace Operator

variable {pool : PoolId} {files : List TableFile} {contents : Contents} {store : Store} {op : Operator}
  {rows : List Row} {table : TableId}

theorem SelectsFrom.openAll (h : op.SelectsFrom table) (store : Store) :
    (op.openAll store).operator.SelectsFrom table := by
  induction op generalizing store with
  | scan source => exact h
  | filter predicate child out ih =>
    have child_eq : ((child.openAll store).feed (keep predicate) #[]).operator = (child.openAll store).operator :=
      Run.operator_feed ..
    unfold Operator.openAll Run.collect
    dsimp only
    split
    · exact child_eq ▸ ih h store
    · exact child_eq ▸ ih h store
  | values | aggregate | insert | delete => exact h.elim

theorem SelectsFrom.sublist (h : op.SelectsFrom table) (gives : op.Gives contents rows) :
    (rows.map Row.id).Sublist ((contents table).rows.map Row.id) := by
  induction op generalizing rows with
  | scan source =>
    cases gives
    cases h
    have ids_eq : ((contents source.table).rows.map source.present).map Row.id =
        (contents source.table).rows.map Row.id := by
      rw [List.map_map]
      exact List.map_congr_left fun row _ => source.id_present row
    rw [ids_eq]
  | filter predicate child out ih =>
    obtain ⟨below, gives, -, rfl⟩ := gives
    exact (List.filter_sublist.map _).trans (ih h gives)
  | values | aggregate | insert | delete => exact h.elim

theorem SelectsFrom.unique {rows' : List Row} (h : op.SelectsFrom table) (gives : op.Gives contents rows)
    (gives' : op.Gives contents rows') : rows = rows' := by
  induction op generalizing rows rows' with
  | scan source => exact gives.trans gives'.symm
  | filter predicate child out ih =>
    obtain ⟨below, gives, -, rfl⟩ := gives
    obtain ⟨below', gives', -, rfl⟩ := gives'
    rw [ih h gives gives']
  | values | aggregate | insert | delete => exact h.elim

/-! ## Counting -/

theorem countOn_leads (n : Int32) (store : Store) :
    Leads (fun n' store' => store' = store ∧ n'.toInt = n.toInt + 1)
      (fun failure store' => store' = store ∧ failure = .aborted .wordOverflow ∧ n = Int32.maxValue)
      (countOn n store) := by
  unfold countOn
  split
  · next full => exact ⟨rfl, rfl, full⟩
  · next room =>
    have ne : n.toInt ≠ Int32.maxValue.toInt := fun same => room (Int32.toInt_inj.mp same)
    have max_eq : Int32.maxValue.toInt = 2147483647 := by decide
    have one_eq : (1 : Int32).toInt = 1 := by decide
    have lt := n.toInt_lt
    have ge := n.le_toInt
    refine ⟨rfl, ?_⟩
    rw [Int32.toInt_add, one_eq, Int.bmod_eq_of_le] <;> omega

/-- Where each change succeeds, and leaves the pages ahead of a scan as they are, a change is carried out for every row,
and the rows are counted as far as the counter goes. -/
theorem Offers.feed_count (offers : op.Offers pool files contents rows)
    (room : ∀ file ∈ files, (contents file.id).length < UInt32.size) {At : List Row → Store → Prop}
    {change : Row → Action Unit}
    (changed : ∀ {given row rest store}, given ++ row :: rest = rows → At given store →
      ∃ store', change row store = .ok () store' ∧ At (given ++ [row]) store')
    (ahead : ∀ source, op = .scan source → ∀ {n given store}, n < UInt32.size →
      given ++ (PlainTable.rows ((contents source.table).drop n)).map source.present = rows → At given store →
      ∃ store', TableCursor.pageRows? pool source.cursor.file (UInt32.ofNat n) store =
          .ok ((contents source.table)[n]?.map PlainPage.rows) store' ∧ At given store')
    (here : At [] store) :
    Leads (fun (n : Int32) store => n.toInt = rows.length ∧ At rows store)
      (fun failure _ => failure = .aborted .wordOverflow ∧ Int32.maxValue.toInt < rows.length)
      (op.feed (fun n row => do change row; countOn n) 0 store) := by
  let Counted (rest : List Row) (n : Int32) (store : Store) : Prop :=
    ∃ given, given ++ rest = rows ∧ n.toInt = given.length ∧ At given store
  let failed (failure : Failure) (_ : Store) : Prop :=
    failure = .aborted .wordOverflow ∧ Int32.maxValue.toInt < rows.length
  have stepped : ∀ {row rest n store}, Counted (row :: rest) n store →
      Leads (Counted rest) failed ((do change row; countOn n : Action Int32) store) := by
    rintro row rest n store ⟨given, sum_eq, count_eq, here⟩
    obtain ⟨store', change_eq, here'⟩ := changed sum_eq here
    rw [Action.bind_ok change_eq]
    refine (countOn_leads n store').mono ?counted ?full
    case counted =>
      rintro n' _ ⟨rfl, next_eq⟩
      refine ⟨given ++ [row], by rw [List.append_assoc]; exact sum_eq, ?_, here'⟩
      rw [next_eq, count_eq, List.length_append]
      rfl
    case full =>
      rintro failure _ ⟨-, rfl, rfl⟩
      refine ⟨rfl, ?_⟩
      rw [← sum_eq, count_eq, List.length_append, List.length_cons]
      omega
  have start : Counted rows 0 store := ⟨[], rfl, rfl, here⟩
  have counted := offers.feed_steady room stepped (by
    rintro source rfl n count store lt ⟨given, sum_eq, count_eq, here⟩
    obtain ⟨store', rows_eq, here'⟩ := ahead source rfl lt sum_eq here
    exact ⟨store', rows_eq, given, sum_eq, count_eq, here'⟩) start
  refine counted.mono ?_ fun _ _ full => full
  rintro n store' ⟨given, sum_eq, count_eq, here'⟩
  rw [List.append_nil] at sum_eq
  subst sum_eq
  exact ⟨count_eq, here'⟩

theorem ReadsOnly.registered {tables : Tables} (query : op.ReadsOnly pool store)
    (found : ∀ table, store.catalog.file table = TableFile.among tables.files table) (selects : op.SelectsFrom table) :
    ∃ file, file ∈ tables.files ∧ file.id = table := by
  induction query with
  | @scan table qualifier planned plan_eq cursor pool_eq file_eq =>
    obtain ⟨file, name, found_eq, planned_eq⟩ := TableScan.of_plan plan_eq
    subst planned_eq
    cases selects
    rw [found] at found_eq
    exact ⟨file, TableFile.mem_of_among found_eq⟩
  | filter below predicate out ih => exact ih selects
  | values | aggregate => exact selects.elim

end Operator

/-! ## What is given of a count -/

namespace Run

/-- Opening succeeded. The one row that is given is the number, and reading it leaves the store as it is. -/
def Counts (run : Run Unit) (n : Nat) : Prop :=
  run.outcome = .ok () ∧ ∃ count : Int32, count.toInt = n ∧
    ∀ calls, run.operator.play calls run.store =
      ((ReadAnswer.ofRows [Operator.countRow count] calls).map .ok, run.store)

theorem Counts.unique {run : Run Unit} {m n : Nat} (h : run.Counts m) (h' : run.Counts n) : m = n := by
  obtain ⟨-, count, count_eq, played⟩ := h
  obtain ⟨-, count', count_eq', played'⟩ := h'
  have same := (played [.take]).symm.trans (played' [.take])
  simp only [ReadAnswer.ofRows, Operator.countRow, List.map_cons, List.map_nil, Prod.mk.injEq, and_true,
    List.cons.injEq, Except.ok.injEq, ReadAnswer.given.injEq, List.head?_cons, Option.some.injEq, Row.mk.injEq,
    Value.int.injEq, true_and] at same
  rw [same] at count_eq
  exact Int.ofNat_inj.mp (count_eq.symm.trans count_eq')

variable {run : Run Int32} {failure : Failure}

theorem collectCount_ok {n : Int32} (ok : run.outcome = .ok n)
    (parent : Option Int32 → Operator → RowBuffer → Operator) (out : RowBuffer) :
    run.collectCount parent out =
      ⟨.ok (), parent (some n) run.operator (RowBuffer.ofRows Operator.countSchema [Operator.countRow n]).opened,
        run.store⟩ := by
  rw [collectCount, ok]

theorem collectCount_error (failed : run.outcome = .error failure)
    (parent : Option Int32 → Operator → RowBuffer → Operator) (out : RowBuffer) :
    run.collectCount parent out = ⟨.error failure, parent none run.operator out, run.store⟩ := by
  rw [collectCount, failed]

theorem counts_collectCount {count : Int32} {n : Nat} (ok : run.outcome = .ok count) (count_eq : count.toInt = n)
    {parent : Option Int32 → Operator → RowBuffer → Operator}
    (offers : ∀ done op (out : RowBuffer), out.isOpen = true →
      (parent done op out).Offers ⟨0⟩ [] (fun _ => []) out.rest) (out : RowBuffer) :
    (run.collectCount parent out).Counts n := by
  rw [collectCount_ok ok]
  refine ⟨rfl, count, count_eq, fun calls => ?_⟩
  have offered := offers (some count) run.operator
    (RowBuffer.ofRows Operator.countSchema [Operator.countRow count]).opened rfl
  obtain ⟨answers_eq, store_eq⟩ := offered.play_ok (fun _ mem => absurd mem List.not_mem_nil) (Eq.refl run.store) calls
  exact Prod.ext answers_eq store_eq.symm

theorem counts_inserted {count : Int32} {n : Nat} (ok : run.outcome = .ok count) (count_eq : count.toInt = n)
    (pool : PoolId) (txn : TxnId) (table : TableId) (out : RowBuffer) :
    (run.collectCount (.insert pool txn table) out).Counts n := by
  refine counts_collectCount ok count_eq (fun done op out isOpen => ?_) out
  exact ⟨isOpen, rfl⟩

theorem counts_deleted {count : Int32} {n : Nat} (ok : run.outcome = .ok count) (count_eq : count.toInt = n)
    (pool : PoolId) (txn : TxnId) (out : RowBuffer) : (run.collectCount (.delete pool txn) out).Counts n := by
  refine counts_collectCount ok count_eq (fun done op out isOpen => ?_) out
  exact ⟨isOpen, rfl⟩

end Run

end RowStore
