import RowStore.Proofs.Pool.CursorSteps
import RowStore.Proofs.Query.Meaning

/-!
# Opening and reading a query

Opening a query that only reads brings it to where it offers the rows that it gives, or fails where no rows are given.
Looking for a row then changes nothing of what is offered, and taking one takes the first.
-/

namespace RowStore

/-! ## Open operators -/

/-- The operator is open and has these rows left. -/
def Operator.Offers (pool : PoolId) (files : List TableFile) (contents : Contents) (rows : List Row) : Operator → Prop
  | .scan source =>
    source.cursor.pool = pool ∧ source.cursor.file ∈ files ∧ source.table = source.cursor.file.id ∧
      source.cursor.isOpen = true ∧ rows = (source.cursor.left (contents source.table)).map source.present
  | .values out | .filter _ _ out | .aggregate _ _ out | .insert _ _ _ _ _ out | .delete _ _ _ _ out =>
    out.isOpen = true ∧ rows = out.rest

/-- A condition on the rows to come that each step keeps up holds of none in the end. -/
theorem foldlM_leads {σ : Type} {At : List Row → σ → Store → Prop} {failed : Failure → Store → Prop}
    {step : σ → Row → Action σ}
    (stepped : ∀ {row rest acc store}, At (row :: rest) acc store → Leads (At rest) failed (step acc row store))
    {rows : List Row} {acc : σ} {store : Store} (here : At rows acc store) :
    Leads (At []) failed (rows.foldlM step acc store) := by
  induction rows generalizing acc store with
  | nil => exact here
  | cons row rows ih =>
    rw [List.foldlM_cons]
    exact (stepped here).bind fun _ _ here' => ih here'

namespace Operator

variable {pool : PoolId} {files : List TableFile} {contents : Contents} {inv : Store → Prop} {store : Store}
  {op : Operator} {rows : List Row} {σ : Type}

/-! ## Giving all rows to a step -/

theorem feed_scan_leads {source : TableScan} {step : σ → Row → Action σ} {acc : σ} {post : σ → Store → Prop}
    {failed : Failure → Store → Prop}
    (h : Leads (fun acc s => post acc s.2) (fun failure s => failed failure s.2)
      (TableCursor.feed (fun acc row => step acc (source.present row)) acc (source.cursor, store))) :
    Leads post failed ((scan source).feed step acc store) := by
  unfold feed
  dsimp only
  split
  · next run =>
    rw [run] at h
    exact h
  · next run =>
    rw [run] at h
    exact h

theorem Offers.feed_eq (offers : op.Offers pool files contents rows) (step : σ → Row → Action σ) (acc : σ) :
    (∃ source, op = .scan source) ∨ op.feed step acc = rows.foldlM step acc := by
  cases op with
  | scan source => exact .inl ⟨source, rfl⟩
  | values out | filter _ _ out | aggregate _ _ out | insert _ _ _ _ _ out | delete _ _ _ _ out =>
    obtain ⟨isOpen, rfl⟩ := offers
    exact .inr (if_pos isOpen)

/-- The rows that are offered are given, if a scan finds the pages ahead of it as they were. -/
theorem Offers.feed_steady (offers : op.Offers pool files contents rows)
    (room : ∀ file ∈ files, (contents file.id).length < UInt32.size) {At : List Row → σ → Store → Prop}
    {failed : Failure → Store → Prop} {step : σ → Row → Action σ}
    (stepped : ∀ {row rest acc store}, At (row :: rest) acc store → Leads (At rest) failed (step acc row store))
    (ahead : ∀ source, op = .scan source → ∀ {n acc store}, n < UInt32.size →
      At ((PlainTable.rows ((contents source.table).drop n)).map source.present) acc store →
      ∃ store', TableCursor.pageRows? pool source.cursor.file (UInt32.ofNat n) store =
          .ok ((contents source.table)[n]?.map PlainPage.rows) store' ∧
        At ((PlainTable.rows ((contents source.table).drop n)).map source.present) acc store')
    {acc : σ} (here : At rows acc store) : Leads (At []) failed (op.feed step acc store) := by
  rcases offers.feed_eq step acc with ⟨source, rfl⟩ | feed_eq
  · obtain ⟨pool_eq, mem, table_eq, isOpen, rfl⟩ := offers
    have room' := room _ mem
    rw [← table_eq] at room'
    let At' (rest : List Row) : σ → Store → Prop := At (rest.map source.present)
    have stepped' : ∀ {row rest acc store}, At' (row :: rest) acc store →
        Leads (At' rest) failed (step acc (source.present row) store) := stepped
    exact feed_scan_leads
      (TableCursor.feed_steady room' stepped' (ahead source rfl) source.cursor isOpen pool_eq rfl here)
  · rw [feed_eq]
    exact foldlM_leads stepped here

theorem Offers.feed_check (offers : op.Offers pool files contents rows)
    (serves : ∀ file ∈ files, file.Serves pool (contents file.id) inv) (here : inv store)
    (step : σ → Row → Except StoreError σ) (acc : σ) :
    Leads (fun acc' store => inv store ∧ rows.foldlM step acc = .ok acc')
      (fun failure store => inv store ∧ ∃ e, failure = .refused e ∧ rows.foldlM step acc = .error e)
      (op.feed (fun acc row => Action.check (step acc row)) acc store) := by
  -- What the steps come to from here is what they come to on all rows.
  let At (rest : List Row) (acc' : σ) (store : Store) : Prop :=
    inv store ∧ rows.foldlM step acc = rest.foldlM step acc'
  let failed (failure : Failure) (store : Store) : Prop :=
    inv store ∧ ∃ e, failure = .refused e ∧ rows.foldlM step acc = .error e
  have stepped : ∀ {row rest acc' store}, At (row :: rest) acc' store →
      Leads (At rest) failed (Action.check (step acc' row) store) := by
    rintro row rest acc' store ⟨here, fold_eq⟩
    rw [List.foldlM_cons] at fold_eq
    cases stepped : step acc' row with
    | ok next =>
      rw [stepped] at fold_eq
      exact ⟨here, fold_eq⟩
    | error e =>
      rw [stepped] at fold_eq
      exact ⟨here, e, rfl, fold_eq⟩
  have start : At rows acc store := ⟨here, rfl⟩
  refine offers.feed_steady (fun file mem => (serves file mem).room) stepped ?_ start
  rintro source rfl n acc' store lt ⟨here, fold_eq⟩
  obtain ⟨-, mem, table_eq, -⟩ := offers
  obtain ⟨store', rows_eq, here'⟩ := (serves _ mem).look lt here
  rw [← table_eq] at rows_eq
  exact ⟨store', rows_eq, here', fold_eq⟩

end Operator

/-! ## Runs -/

namespace Run

variable {pool : PoolId} {files : List TableFile} {contents : Contents} {inv : Store → Prop} {rows : List Row}
  {α σ : Type} {failure : Failure}

theorem feed_leads {post : σ → Store → Prop} {failed : Failure → Store → Prop} {run : Run Unit}
    (opened : run.outcome = .ok ()) {step : σ → Row → Action σ} {acc : σ}
    (fed : Leads post failed (run.operator.feed step acc run.store)) :
    (∃ acc', (run.feed step acc).outcome = .ok acc' ∧ post acc' (run.feed step acc).store) ∨
      ∃ failure, (run.feed step acc).outcome = .error failure ∧ failed failure (run.feed step acc).store := by
  unfold feed
  rw [opened]
  dsimp only
  cases ran : run.operator.feed step acc run.store with
  | ok acc' store' =>
    rw [ran] at fed
    exact .inl ⟨acc', rfl, fed⟩
  | error failure store' =>
    rw [ran] at fed
    exact .inr ⟨failure, rfl, fed⟩

theorem feed_ok {run : Run Unit} (opened : run.outcome = .ok ()) (offers : run.operator.Offers pool files contents rows)
    (serves : ∀ file ∈ files, file.Serves pool (contents file.id) inv) (here : inv run.store)
    (step : σ → Row → Except StoreError σ) (acc : σ) :
    (run.feed (fun acc row => Action.check (step acc row)) acc).outcome = Failure.ofCheck (rows.foldlM step acc) ∧
      inv (run.feed (fun acc row => Action.check (step acc row)) acc).store := by
  rcases feed_leads opened (offers.feed_check serves here step acc) with
    ⟨acc', outcome_eq, here', fold_eq⟩ | ⟨failure, outcome_eq, here', e, rfl, fold_eq⟩
  · rw [outcome_eq, fold_eq]
    exact ⟨rfl, here'⟩
  · rw [outcome_eq, fold_eq]
    exact ⟨rfl, here'⟩

theorem operator_feed (run : Run Unit) (step : σ → Row → Action σ) (acc : σ) :
    (run.feed step acc).operator = run.operator := by
  unfold feed
  repeat' split
  all_goals rfl

theorem feed_error {run : Run Unit} (failed : run.outcome = .error failure) (step : σ → Row → Action σ) (acc : σ) :
    run.feed step acc = ⟨.error failure, run.operator, run.store⟩ := by
  rw [feed, failed]

theorem check_ok {β : Type} {run : Run α} {a : α} (ok : run.outcome = .ok a) (next : α → Except StoreError β) :
    run.check next = ⟨Failure.ofCheck (next a), run.operator, run.store⟩ := by
  rw [check, ok]
  rfl

theorem collect_ok {run : Run (Array Row)} {found : Array Row} (ok : run.outcome = .ok found) (schema : Schema)
    (parent : Operator → RowBuffer → Operator) (out : RowBuffer) :
    run.collect schema parent out =
      ⟨.ok (), parent run.operator (RowBuffer.ofRows schema found.toList).opened, run.store⟩ := by
  rw [collect, ok]

theorem collect_error {run : Run (Array Row)} (failed : run.outcome = .error failure) (schema : Schema)
    (parent : Operator → RowBuffer → Operator) (out : RowBuffer) :
    run.collect schema parent out = ⟨.error failure, parent run.operator out, run.store⟩ := by
  rw [collect, failed]

end Run

/-! ## Filters -/

namespace Predicate

variable {predicate : Predicate} {rows : List Row}

def collect (predicate : Predicate) (found : Array Row) (row : Row) : Except StoreError (Array Row) := do
  if ← predicate.holds row then return found.push row else return found

theorem keep_eq (predicate : Predicate) :
    Operator.keep predicate = fun found row => Action.check (predicate.collect found row) := by
  funext found row
  unfold Operator.keep collect
  cases predicate.holds row with
  | error e => rfl
  | ok kept => cases kept <;> rfl

theorem collect_ok (applies : ∀ row ∈ rows, predicate.Applies row) (found : Array Row) :
    rows.foldlM predicate.collect found = .ok (found ++ (rows.filter predicate.keeps).toArray) := by
  induction rows generalizing found with
  | nil => exact congrArg Except.ok Array.append_empty.symm
  | cons row rows ih =>
    obtain ⟨kept, holds_eq⟩ := applies row List.mem_cons_self
    have ih := ih fun other mem => applies other (List.mem_cons_of_mem _ mem)
    have keeps_eq : predicate.keeps row = kept := by rw [keeps, holds_eq]
    rw [List.foldlM_cons, collect, holds_eq]
    cases kept with
    | false =>
      rw [List.filter_cons_of_neg (by simp [keeps_eq])]
      exact ih found
    | true =>
      rw [List.filter_cons_of_pos keeps_eq]
      exact (ih (found.push row)).trans (by simp)

theorem collect_error {row : Row} (mem : row ∈ rows) (fails : ¬predicate.Applies row) (found : Array Row) :
    ∃ e, rows.foldlM predicate.collect found = .error e := by
  induction rows generalizing found with
  | nil => cases mem
  | cons other rows ih =>
    rw [List.foldlM_cons]
    cases stepped : predicate.collect found other with
    | error e => exact ⟨e, rfl⟩
    | ok next =>
      rcases List.mem_cons.mp mem with rfl | mem
      · obtain ⟨kept, holds_eq, -⟩ := of_bind_eq_ok stepped
        exact absurd ⟨kept, holds_eq⟩ fails
      · exact ih mem next

end Predicate

/-- The rows of an aggregation over some rows. -/
def Aggregation.compute (aggregation : Aggregation) (below : List Row) : Except StoreError (List Row) := do
  let start ← aggregation.start
  let merged ← below.foldlM (fun aggregator row => aggregator.merge row) start
  merged.results aggregation.schema

theorem Aggregation.compute_eq {aggregation : Aggregation} {start : Aggregator}
    (start_eq : aggregation.start = .ok start) (below : List Row) :
    aggregation.compute below = below.foldlM (fun aggregator row => aggregator.merge row) start >>= fun aggregator =>
      aggregator.results aggregation.schema := by
  rw [compute, start_eq]
  rfl

namespace Operator

variable {pool : PoolId} {tables : Tables} {files : List TableFile} {contents : Contents} {inv : Store → Prop}
  {start store : Store} {op child : Operator} {rows below : List Row}

/-! ## Work on the rows below -/

theorem openAll_aggregate_eq {aggregation : Aggregation} {start : Aggregator} (start_eq : aggregation.start = .ok start)
    (child : Operator) (out : RowBuffer) (store : Store) :
    (aggregate aggregation child out).openAll store =
      (((child.openAll store).feed (fun aggregator row => Action.check (aggregator.merge row)) start).check
        fun aggregator => (aggregator.results aggregation.schema).map List.toArray).collect aggregation.schema
          (.aggregate aggregation) out := by
  rw [openAll, start_eq]

section

variable {run : Run Unit} (run_eq : child.openAll store = run) (opened : run.outcome = .ok ())
  (offers : run.operator.Offers pool files contents below)
  (serves : ∀ file ∈ files, file.Serves pool (contents file.id) inv) (here : inv run.store)

include run_eq opened offers serves here

theorem openAll_filter (predicate : Predicate) (out : RowBuffer) :
    ∃ store', inv store' ∧
      (((∀ row ∈ below, predicate.Applies row) ∧ ∃ schema, (filter predicate child out).openAll store =
          ⟨.ok (), .filter predicate run.operator (RowBuffer.ofRows schema (below.filter predicate.keeps)).opened,
            store'⟩) ∨
        (¬∀ row ∈ below, predicate.Applies row) ∧
          ∃ failure op', (filter predicate child out).openAll store = ⟨.error failure, op', store'⟩) := by
  obtain ⟨outcome_eq, here'⟩ := Run.feed_ok opened offers serves here predicate.collect #[]
  rw [← Predicate.keep_eq] at outcome_eq here'
  have filtered : (filter predicate child out).openAll store =
      (run.feed (keep predicate) #[]).collect (run.feed (keep predicate) #[]).operator.schema (.filter predicate) out :=
    run_eq ▸ rfl
  rw [filtered]
  refine ⟨_, here', ?_⟩
  by_cases applies : ∀ row ∈ below, predicate.Applies row
  · rw [Predicate.collect_ok applies, Array.empty_append] at outcome_eq
    rw [Run.collect_ok outcome_eq, Run.operator_feed]
    exact .inl ⟨applies, _, rfl⟩
  · obtain ⟨row, mem, fails⟩ : ∃ row ∈ below, ¬predicate.Applies row := by simpa using applies
    obtain ⟨e, fold_eq⟩ := Predicate.collect_error mem fails #[]
    rw [fold_eq] at outcome_eq
    rw [Run.collect_error outcome_eq]
    exact .inr ⟨applies, _, _, rfl⟩

theorem openAll_aggregate {aggregation : Aggregation} {start : Aggregator} (start_eq : aggregation.start = .ok start)
    (out : RowBuffer) :
    ∃ store', inv store' ∧
      ((∃ rows, aggregation.compute below = .ok rows ∧ (aggregate aggregation child out).openAll store =
          ⟨.ok (), .aggregate aggregation run.operator (RowBuffer.ofRows aggregation.schema rows).opened, store'⟩) ∨
        (∃ e, aggregation.compute below = .error e) ∧
          ∃ failure op', (aggregate aggregation child out).openAll store = ⟨.error failure, op', store'⟩) := by
  obtain ⟨outcome_eq, here'⟩ :=
    Run.feed_ok opened offers serves here (fun aggregator row => aggregator.merge row) start
  rw [openAll_aggregate_eq start_eq, run_eq, Aggregation.compute_eq start_eq]
  refine ⟨_, here', ?_⟩
  cases merged : below.foldlM (fun aggregator row => aggregator.merge row) start with
  | error e =>
    rw [merged] at outcome_eq
    have failed : (run.feed (fun aggregator row => Action.check (aggregator.merge row)) start).outcome =
        .error (.refused e) := outcome_eq
    rw [Run.check, failed]
    exact .inr ⟨⟨e, rfl⟩, .refused e, _, Run.collect_error rfl ..⟩
  | ok aggregator =>
    rw [merged] at outcome_eq
    rw [Run.check_ok outcome_eq]
    have results_eq : (Except.ok aggregator >>= fun aggregator : Aggregator =>
        aggregator.results aggregation.schema) = aggregator.results aggregation.schema := rfl
    rw [results_eq]
    cases aggregator.results aggregation.schema with
    | error e => exact .inr ⟨⟨e, rfl⟩, .refused e, _, Run.collect_error rfl ..⟩
    | ok rows =>
      refine .inl ⟨rows, rfl, ?_⟩
      rw [Run.collect_ok rfl, Run.operator_feed]

end

/-! ## Opening -/

/-- What became of opening a query: it offers rows that it gives, or it failed because no rows are given. -/
def Opens (pool : PoolId) (files : List TableFile) (contents : Contents) (inv : Store → Prop) (op : Operator)
    (run : Run Unit) : Prop :=
  inv run.store ∧
    ((∃ rows, op.Gives contents rows ∧ run.outcome = .ok () ∧ run.operator.Offers pool files contents rows) ∨
      (∃ failure, run.outcome = .error failure) ∧ ∀ rows, ¬op.Gives contents rows)

theorem Opens.filter {predicate : Predicate} {out : RowBuffer}
    (serves : ∀ file ∈ tables.files, file.Serves pool (contents file.id) inv)
    (h : child.Opens pool tables.files contents inv (child.openAll store)) :
    (Operator.filter predicate child out).Opens pool tables.files contents inv
      ((Operator.filter predicate child out).openAll store) := by
  obtain ⟨here, ⟨below, gives, opened, offers⟩ | ⟨⟨failure, failed⟩, none⟩⟩ := h
  · obtain ⟨store', here', ⟨applies, schema, run_eq⟩ | ⟨fails, failure, op', run_eq⟩⟩ :=
      openAll_filter rfl opened offers serves here predicate out
    · rw [run_eq]
      exact ⟨here', .inl ⟨_, ⟨below, gives, applies, rfl⟩, rfl, rfl, rfl⟩⟩
    · rw [run_eq]
      refine ⟨here', .inr ⟨⟨failure, rfl⟩, ?_⟩⟩
      rintro rows ⟨below', gives', applies', -⟩
      exact fails fun row mem => applies' row ((gives.perm gives').mem_iff.mp mem)
  · unfold openAll
    dsimp only
    rw [Run.collect_error (congrArg Run.outcome (Run.feed_error failed _ _)), Run.feed_error failed]
    exact ⟨here, .inr ⟨⟨failure, rfl⟩, fun rows ⟨below, gives, _⟩ => none below gives⟩⟩

theorem Opens.aggregate {aggregation : Aggregation} {out : RowBuffer}
    (serves : ∀ file ∈ tables.files, file.Serves pool (contents file.id) inv) (suits : aggregation.Suits child.schema)
    (typed : ∀ rows, child.Gives contents rows → ∀ row ∈ rows, row.Typed child.schema)
    (h : child.Opens pool tables.files contents inv (child.openAll store)) :
    (Operator.aggregate aggregation child out).Opens pool tables.files contents inv
      ((Operator.aggregate aggregation child out).openAll store) := by
  obtain ⟨here, ⟨below, gives, opened, offers⟩ | ⟨⟨failure, failed⟩, none⟩⟩ := h
  · obtain ⟨groups, merged, tallied⟩ :=
      Aggregation.mergeAll_ok (fun row mem => suits.takes (typed below gives row mem)) aggregation.tallied_empty
    rw [List.nil_append] at tallied
    have computed : aggregation.compute below = (aggregation.withGroups groups).results aggregation.schema := by
      rw [Aggregation.compute_eq suits.start_eq, merged]
      rfl
    obtain ⟨store', here', ⟨rows, given, run_eq⟩ | ⟨⟨e, failed⟩, failure, op', run_eq⟩⟩ :=
      openAll_aggregate rfl opened offers serves here suits.start_eq out
    · rcases suits.results_cases (typed below gives) tallied with ⟨rows', results_eq, summary⟩ | ⟨⟨e, results_eq⟩, -⟩
      · cases given.symm.trans (computed.trans results_eq)
        rw [run_eq]
        exact ⟨here', .inl ⟨rows, ⟨below, gives, summary⟩, rfl, rfl, rfl⟩⟩
      · cases given.symm.trans (computed.trans results_eq)
    · rcases suits.results_cases (typed below gives) tallied with ⟨rows', results_eq, -⟩ | ⟨-, wide⟩
      · cases failed.symm.trans (computed.trans results_eq)
      · rw [run_eq]
        refine ⟨here', .inr ⟨⟨failure, rfl⟩, ?_⟩⟩
        rintro rows ⟨below', gives', range, -⟩
        exact wide (range.perm (gives'.perm gives))
  · rw [openAll_aggregate_eq suits.start_eq, Run.feed_error failed]
    exact ⟨here, .inr ⟨⟨failure, rfl⟩, fun rows ⟨below, gives, _⟩ => none below gives⟩⟩

theorem ReadsOnly.opens (h : op.ReadsOnly pool start)
    (found : ∀ table, start.catalog.file table = TableFile.among tables.files table) (sound : contents.Sound tables)
    (serves : ∀ file ∈ tables.files, file.Serves pool (contents file.id) inv) (here : inv store) :
    op.Opens pool tables.files contents inv (op.openAll store) := by
  induction h with
  | values made => exact ⟨here, .inl ⟨_, rfl, rfl, rfl, rfl⟩⟩
  | @scan table qualifier planned plan_eq cursor pool_eq file_eq =>
    obtain ⟨file, name, found_eq, planned_eq⟩ := TableScan.of_plan plan_eq
    subst planned_eq
    rw [found] at found_eq
    obtain ⟨mem, rfl⟩ := TableFile.mem_of_among found_eq
    refine ⟨here, .inl ⟨_, rfl, rfl, pool_eq, ?_, ?_, rfl, rfl⟩⟩
    · exact file_eq ▸ mem
    · exact congrArg TableFile.id file_eq.symm
  | filter below predicate out ih => exact ih.filter serves
  | aggregate below plan_eq out ih =>
    exact ih.aggregate serves (Aggregation.suits_of_plan plan_eq) fun rows gives => below.typed found sound gives

end Operator

end RowStore
