import RowStore.Proofs.Query.Replaying

/-!
# The first opening of an operator

An operator is built over given rows or over the scan of a table, from filters, aggregations and changes of tables in
any nesting. Only its first opening changes tables. As long as page numbers do not run out there are plain tables for
what it leaves, and from there on the operator gives the same rows and nothing changes any more. Where groups are worked
out again only their order may be another.
-/

namespace RowStore

/-! ## No shorter files -/

theorem Action.check_grows {α : Type} (result : Except StoreError α) : (check result).Grows := by
  intro start store extended
  cases result <;> exact extended

namespace Operator

variable {σ : Type}

theorem keep_grows (predicate : Predicate) (rows : Array Row) (row : Row) : (keep predicate rows row).Grows := by
  rw [Predicate.keep_eq]
  exact Action.check_grows _

theorem countOn_within {errors : StoreError → Prop} (n : Int32) : (countOn n).Within errors := by
  unfold countOn
  split
  · exact .abort _
  · exact .pure _

theorem store_grows (pool : PoolId) (txn : TxnId) (table : TableId) (n : Int32) (row : Row) :
    (Operator.store pool txn table n row).Grows :=
  ((pool.insert_within txn row table).discard.bind fun _ => countOn_within n).grows

theorem remove_grows (pool : PoolId) (txn : TxnId) (n : Int32) (row : Row) : (remove pool txn n row).Grows :=
  ((pool.delete_within txn row).bind fun _ => countOn_within n).grows

theorem foldlM_grows {step : σ → Row → Action σ} (grows : ∀ acc row, (step acc row).Grows) (rows : List Row) (acc : σ) :
    (rows.foldlM step acc).Grows := by
  intro start
  induction rows generalizing acc with
  | nil => exact .pure fun _ extended => extended
  | cons row rows ih =>
    rw [List.foldlM_cons]
    exact (grows acc row start).bind fun acc' => ih acc'

theorem feed_grows {step : σ → Row → Action σ} (grows : ∀ acc row, (step acc row).Grows) (op : Operator) (acc : σ) :
    (op.feed step acc).Grows := by
  intro start store extended
  cases op with
  | scan source =>
    have fed := TableCursor.feed_keeps (fun id => (source.cursor.pool.fetch_within id).grows start)
      (fun acc row => grows acc (source.present row) start) source.cursor rfl acc extended
    unfold feed
    dsimp only
    split
    · next run =>
      rw [run] at fed
      exact fed
    · next run =>
      rw [run] at fed
      exact fed
  | values out | filter _ _ out | aggregate _ _ out | insert _ _ _ _ _ out | delete _ _ _ _ out =>
    unfold feed
    dsimp only
    split
    · exact foldlM_grows grows out.rest acc start store extended
    · exact extended

end Operator

namespace Run

variable {α β σ : Type} {store : Store}

theorem of_collect_ok {run : Run (Array Row)} {schema : Schema} {parent : Operator → RowBuffer → Operator}
    {out : RowBuffer} (ok : (run.collect schema parent out).outcome = .ok ()) : ∃ found, run.outcome = .ok found := by
  unfold collect at ok
  split at ok
  · next found outcome_eq => exact ⟨found, outcome_eq⟩
  · cases ok

theorem store_collect (run : Run (Array Row)) (schema : Schema) (parent : Operator → RowBuffer → Operator)
    (out : RowBuffer) : (run.collect schema parent out).store = run.store := by
  unfold collect
  split <;> rfl

theorem of_check_ok {run : Run α} {next : α → Except StoreError β} {b : β} (ok : (run.check next).outcome = .ok b) :
    ∃ a, run.outcome = .ok a := by
  unfold check at ok
  cases outcome_eq : run.outcome with
  | ok a => exact ⟨a, rfl⟩
  | error failure =>
    rw [outcome_eq] at ok
    cases ok

theorem of_collectCount_ok {run : Run Int32} {parent : Option Int32 → Operator → RowBuffer → Operator}
    {out : RowBuffer} (ok : (run.collectCount parent out).outcome = .ok ()) : ∃ n, run.outcome = .ok n := by
  unfold collectCount at ok
  split at ok
  · next n outcome_eq => exact ⟨n, outcome_eq⟩
  · cases ok

theorem of_feed_ok {run : Run Unit} {step : σ → Row → Action σ} {acc a : σ}
    (ok : (run.feed step acc).outcome = .ok a) :
    run.outcome = .ok () ∧ run.operator.feed step acc run.store = .ok a (run.feed step acc).store := by
  unfold feed at ok ⊢
  cases opened : run.outcome with
  | error failure =>
    rw [opened] at ok
    cases ok
  | ok _ =>
    rw [opened] at ok
    dsimp only at ok ⊢
    cases fed : run.operator.feed step acc run.store with
    | error failure after =>
      rw [fed] at ok
      cases ok
    | ok acc' after =>
      rw [fed] at ok
      cases ok
      exact ⟨rfl, rfl⟩

theorem feed_extends {run : Run Unit} {step : σ → Row → Action σ} {acc a : σ}
    (grows : ∀ acc row, (step acc row).Grows) (ok : (run.feed step acc).outcome = .ok a) :
    run.outcome = .ok () ∧ run.store.Extends (run.feed step acc).store := by
  obtain ⟨opened, fed⟩ := of_feed_ok ok
  have extended := Operator.feed_grows grows run.operator acc run.store run.store (.refl run.store)
  rw [fed] at extended
  exact ⟨opened, extended⟩

end Run

/-! ## Changes of unknown tables -/

/-- There are plain tables that the pool shows, unless page numbers may have run out. -/
def PoolId.ShowsSome (pool : PoolId) (tables : Tables) (capacity : Nat) (store : Store) : Prop :=
  ∃ contents, store.HasRoom tables.files → pool.Shows tables capacity contents store

/-- If an action succeeded no file is shorter, and there are still plain tables that the pool shows. -/
abbrev PoolId.Advances {α : Type} (pool : PoolId) (tables : Tables) (capacity : Nat) (before : Store) :
    EStateM.Result Failure Store α → Prop :=
  Leads (fun _ after => before.Extends after ∧ pool.ShowsSome tables capacity after) fun _ _ => True

namespace Operator

variable {pool : PoolId} {tables : Tables} {capacity : Nat} {contents : Contents} {start store : Store}
  {op child : Operator} {rows : List Row} {row : Row} {σ : Type}

theorem countOn_after {change : Action Unit} (changed : pool.Advances tables capacity store (change store))
    (n : Int32) :
    pool.Advances tables capacity store ((do change; countOn n : Action Int32) store) := by
  refine changed.bind fun _ after shown => (countOn_leads n after).mono ?_ fun _ _ _ => trivial
  rintro n' _ ⟨rfl, -⟩
  exact shown

/-- A row that was made is about to be changed in tables that the pool shows, unless page numbers may have run out. -/
def Awaits (pool : PoolId) (tables : Tables) (capacity : Nat) (row : Row) (store : Store) : Prop :=
  ∃ contents, store.HasRoom tables.files → pool.Shows tables capacity contents store ∧ row.Made

theorem Awaits.store_advances (h : Awaits pool tables capacity row store) (txn : TxnId) (table : TableId) (n : Int32) :
    pool.Advances tables capacity store (Operator.store pool txn table n row store) := by
  obtain ⟨contents, here⟩ := h
  have inserted := PoolId.insert_leads here txn table
  apply countOn_after
  cases run : pool.insert txn table row store with
  | error failure after =>
    rw [Action.discard_error run]
    trivial
  | ok stored after =>
    rw [run] at inserted
    rw [Action.discard_ok run]
    exact ⟨inserted.1, _, inserted.2⟩

theorem Awaits.remove_advances (h : Awaits pool tables capacity row store) (txn : TxnId) (n : Int32) :
    pool.Advances tables capacity store (remove pool txn n row store) := by
  obtain ⟨contents, here⟩ := h
  exact countOn_after ((PoolId.delete_leads (fun room => (here room).1) txn row).mono
    (fun _ _ deleted => ⟨deleted.1, _, deleted.2⟩) fun _ _ _ => trivial) n

/-! ## Building -/

/-- The operator was just built from these parts, over the tables of one pool. -/
inductive Built (pool : PoolId) (start : Store) : Operator → Prop where
  | values {schema : Schema} {rows : List Row} (made : ∀ row ∈ rows, row.Made) : Built pool start (ofRows schema rows)
  | scan {table : TableId} {qualifier : Option String} {op : Operator}
      (planned : ofTable pool table qualifier start = .ok op start) : Built pool start op
  | filter {child : Operator} (below : Built pool start child) (predicate : Predicate) :
      Built pool start (child.filtered predicate)
  | aggregate {child op : Operator} (below : Built pool start child) {column : Nat} {group : Option Nat}
      {aggregate : Aggregate} (planned : child.aggregated column group aggregate = .ok op) : Built pool start op
  | insert {child op : Operator} (below : Built pool start child) {txn : TxnId} {table : TableId}
      (planned : child.insertedInto pool txn table start = .ok op start) : Built pool start op
  | delete {child : Operator} (below : Built pool start child) (txn : TxnId) : Built pool start (child.deleted pool txn)

/-! ## After the first opening -/

/-- The operator offers rows that were made, and gives them again, over tables that the pool shows. -/
structure Ready (pool : PoolId) (tables : Tables) (capacity : Nat) (contents : Contents) (rows : List Row)
    (run : Run Unit) : Prop where
  shows : pool.Shows tables capacity contents run.store
  replays : run.operator.Replays pool tables.files contents rows
  offers : run.operator.Offers pool tables.files contents rows
  made : ∀ row ∈ rows, row.Made
  presents : ∀ source, run.operator = .scan source → ∀ row, row.Typed source.cursor.file.schema →
    row.schema = source.cursor.file.schema → (source.present row).Made

theorem Ready.feed_leads {run : Run Unit} (h : Ready pool tables capacity contents rows run) {step : σ → Row → Action σ}
    (stepped : ∀ acc {row store}, Awaits pool tables capacity row store →
      pool.Advances tables capacity store (step acc row store))
    (acc : σ) :
    Leads (fun _ after => pool.ShowsSome tables capacity after) (fun _ _ => True)
      (run.operator.feed step acc run.store) := by
  rcases h.offers.feed_eq step acc with ⟨source, op_eq⟩ | feed_eq
  · have offers := h.offers
    rw [op_eq] at offers ⊢
    obtain ⟨pool_eq, mem, table_eq, isOpen, rows_eq⟩ := offers
    have present := h.presents source op_eq
    let At (_ : Nat) (rest : List Row) (_ : σ) (store : Store) : Prop :=
      ∃ contents, store.HasRoom tables.files →
        pool.Shows tables capacity contents store ∧ ∀ row ∈ rest, (source.present row).Made
    have stepped' : ∀ {n row rest acc store}, At n (row :: rest) acc store →
        Leads (At n rest) (fun _ _ => True) (step acc (source.present row) store) := by
      rintro n row rest acc store ⟨contents, here⟩
      have awaits : Awaits pool tables capacity (source.present row) store :=
        ⟨contents, fun room => ⟨(here room).1, (here room).2 row List.mem_cons_self⟩⟩
      refine (stepped acc awaits).mono ?_ fun _ _ _ => trivial
      rintro acc' after ⟨extended, contents', here'⟩
      refine ⟨contents', fun room => ⟨here' room, fun other other_mem => ?_⟩⟩
      exact (here (extended.hasRoom room)).2 other (List.mem_cons_of_mem _ other_mem)
    have turns : ∀ {n acc store}, n < UInt32.size → At n [] acc store →
        Leads (fun rows? after => rows?.elim (pool.ShowsSome tables capacity after)
            fun rows => At (n + 1) rows acc after) (fun _ _ => True)
          (TableCursor.pageRows? pool source.cursor.file (UInt32.ofNat n) store) := by
      rintro n acc store lt ⟨contents, here⟩
      by_cases room : store.HasRoom tables.files
      · obtain ⟨shows, -⟩ := here room
        obtain ⟨store', run_eq, shows'⟩ := shows.pageRows?_ok mem (shows.room room _ mem) lt
        rw [run_eq]
        cases page_eq : (contents source.cursor.file.id)[n]? with
        | none => exact ⟨contents, fun _ => shows'⟩
        | some page =>
          refine ⟨contents, fun _ => ⟨shows', fun row row_mem => ?_⟩⟩
          have row_mem' : row ∈ (contents source.cursor.file.id).rows :=
            List.mem_flatMap.mpr ⟨page, List.mem_of_getElem? page_eq, row_mem⟩
          obtain ⟨typed, schema_eq⟩ := shows.sound.typed mem row_mem'
          exact present row typed schema_eq
      · refine (TableCursor.pageRows?_tame _ _ _ store).mono (fun rows? after extended => ?_) fun _ _ _ => trivial
        cases rows? with
        | none => exact ⟨contents, fun room' => absurd (extended.hasRoom room') room⟩
        | some rows => exact ⟨contents, fun room' => absurd (extended.hasRoom room') room⟩
    have last : ∀ {acc store}, At UInt32.size [] acc store → pool.ShowsSome tables capacity store :=
      fun ⟨contents, here⟩ => ⟨contents, fun room => (here room).1⟩
    have begun : At source.cursor.nextPage.toNat (source.cursor.peeked.toList ++ source.cursor.current) acc
        run.store := by
      refine ⟨contents, fun _ => ⟨h.shows, fun row row_mem => h.made _ ?_⟩⟩
      rw [rows_eq]
      exact List.mem_map_of_mem (List.mem_append_left _ row_mem)
    exact feed_scan_leads (TableCursor.feed_leads @stepped' @turns @last source.cursor isOpen pool_eq rfl begun)
  · rw [feed_eq]
    let At (rest : List Row) (_ : σ) (store : Store) : Prop :=
      pool.ShowsSome tables capacity store ∧ ∀ row ∈ rest, row.Made
    have stepped' : ∀ {row rest acc store}, At (row :: rest) acc store →
        Leads (At rest) (fun _ _ => True) (step acc row store) := by
      rintro row rest acc store ⟨⟨contents, here⟩, made⟩
      have awaits : Awaits pool tables capacity row store :=
        ⟨contents, fun room => ⟨here room, made row List.mem_cons_self⟩⟩
      refine (stepped acc awaits).mono ?_ fun _ _ _ => trivial
      rintro acc' after ⟨-, shown⟩
      exact ⟨shown, fun other other_mem => made other (List.mem_cons_of_mem _ other_mem)⟩
    have begun : At rows acc run.store := ⟨⟨contents, fun _ => h.shows⟩, h.made⟩
    exact (foldlM_leads stepped' begun).mono (fun _ _ ended => ended.1) fun _ _ _ => trivial

end Operator

theorem Aggregation.made_of_compute {aggregation : Aggregation} {below rows : List Row}
    (computed : aggregation.compute below = .ok rows) : ∀ row ∈ rows, row.Made := by
  obtain ⟨start, -, computed⟩ := of_bind_eq_ok computed
  obtain ⟨merged, -, results_eq⟩ := of_bind_eq_ok computed
  intro row mem
  obtain ⟨⟨key, tally⟩, -, row_eq⟩ := of_mapM_eq_ok results_eq row mem
  obtain ⟨result, -, row_eq⟩ := of_bind_eq_ok row_eq
  obtain ⟨group, -, made⟩ := of_bind_eq_ok row_eq
  exact .ofValues made

namespace Operator

variable {pool : PoolId} {tables : Tables} {capacity : Nat} {contents : Contents} {start store : Store}
  {op child : Operator} {rows : List Row}

/-! ## One case for each part -/

theorem Ready.filter (h : Ready pool tables capacity contents rows (child.openAll store))
    (room : (child.openAll store).store.HasRoom tables.files) (below : (child.openAll store).outcome = .ok ())
    {predicate : Predicate} {out : RowBuffer}
    (opened : ((Operator.filter predicate child out).openAll store).outcome = .ok ()) :
    Ready pool tables capacity contents (rows.filter predicate.keeps)
      ((Operator.filter predicate child out).openAll store) := by
  have small := h.shows.room room
  obtain ⟨store', shows', ⟨applies, schema, run_eq⟩ | ⟨-, failure, op', run_eq⟩⟩ :=
    openAll_filter rfl below h.offers (PoolId.Shows.serves_all small) h.shows predicate out
  · rw [run_eq]
    exact ⟨shows', ⟨rfl, rows, h.replays, applies, rfl⟩, ⟨rfl, rfl⟩,
      fun row mem => h.made row (List.mem_of_mem_filter mem), nofun⟩
  · rw [run_eq] at opened
    cases opened

theorem Ready.aggregate (h : Ready pool tables capacity contents rows (child.openAll store))
    (room : (child.openAll store).store.HasRoom tables.files) (below : (child.openAll store).outcome = .ok ())
    {aggregation : Aggregation} {first : Aggregator} (start_eq : aggregation.start = .ok first) {out : RowBuffer}
    (opened : ((Operator.aggregate aggregation child out).openAll store).outcome = .ok ()) :
    ∃ rows', Ready pool tables capacity contents rows' ((Operator.aggregate aggregation child out).openAll store) := by
  have small := h.shows.room room
  obtain ⟨store', shows', ⟨rows', computed, run_eq⟩ | ⟨-, failure, op', run_eq⟩⟩ :=
    openAll_aggregate rfl below h.offers (PoolId.Shows.serves_all small) h.shows start_eq out
  · refine ⟨rows', ?_⟩
    rw [run_eq]
    exact ⟨shows', ⟨rfl, rows, h.replays, fun row mem => (h.made row mem).fits, computed⟩, ⟨rfl, rfl⟩,
      Aggregation.made_of_compute computed, nofun⟩
  · rw [run_eq] at opened
    cases opened

theorem Ready.collectCount {run : Run Unit} (h : Ready pool tables capacity contents rows run)
    {step : Int32 → Row → Action Int32}
    (stepped : ∀ acc {row store}, Awaits pool tables capacity row store →
      pool.Advances tables capacity store (step acc row store))
    {n : Int32} (fed : (run.feed step 0).outcome = .ok n) (room : (run.feed step 0).store.HasRoom tables.files)
    {parent : Option Int32 → Operator → RowBuffer → Operator} (buffers : ∀ done child, Buffers (parent done child))
    (keeps : ∀ child out contents, out.rows = [countRow n] →
      (parent (some n) child out).Replays pool tables.files contents [countRow n])
    (out : RowBuffer) :
    ∃ contents' rows', Ready pool tables capacity contents' rows' ((run.feed step 0).collectCount parent out) := by
  obtain ⟨-, feed_eq⟩ := Run.of_feed_ok fed
  have shown := h.feed_leads stepped 0
  rw [feed_eq] at shown
  obtain ⟨contents', here⟩ := shown
  have made : Row.ofValues countSchema [.int n] = .ok (countRow n) := rfl
  rw [Run.collectCount_ok fed]
  refine ⟨contents', [countRow n], here room, keeps _ _ _ rfl, (buffers ..).offers_iff.mpr ⟨rfl, rfl⟩,
    List.forall_mem_singleton.mpr (.ofValues made), fun source same => ?_⟩
  have isScan_eq := congrArg isScan same
  rw [(buffers ..).isScan_eq] at isScan_eq
  cases isScan_eq

theorem Built.ready_scan {table : TableId} {qualifier : Option String}
    (planned : ofTable pool table qualifier start = .ok op start)
    (found : ∀ table, start.catalog.file table = TableFile.among tables.files table)
    (shows : pool.Shows tables capacity contents store) :
    ∃ rows, Ready pool tables capacity contents rows (op.openAll store) := by
  obtain ⟨source, middle, plan_eq, op_eq⟩ := Action.of_bind_ok planned
  cases op_eq
  obtain ⟨file, name, found_eq, source_eq⟩ := TableScan.of_plan plan_eq
  obtain ⟨mem, rfl⟩ := TableFile.mem_of_among ((found table).symm.trans found_eq)
  have present : ∀ row, row.Typed file.schema → row.schema = file.schema → (source.present row).Made :=
    fun row typed schema_eq => (TableScan.made_present plan_eq found_eq typed schema_eq).1
  subst source_eq
  refine ⟨_, shows, ⟨⟨rfl, mem, rfl, Nat.zero_le _⟩, rfl⟩, ⟨rfl, mem, rfl, rfl, rfl⟩, ?_, ?_⟩
  · intro row row_mem
    obtain ⟨stored, stored_mem, rfl⟩ := List.mem_map.mp row_mem
    obtain ⟨typed, schema_eq⟩ := shows.sound.typed mem stored_mem
    exact present stored typed schema_eq
  · rintro _ ⟨⟩
    exact present

theorem Built.opens (built : op.Built pool start)
    (found : ∀ table, start.catalog.file table = TableFile.among tables.files table)
    (shows : pool.Shows tables capacity contents store) (opened : (op.openAll store).outcome = .ok ())
    (room : (op.openAll store).store.HasRoom tables.files) :
    ∃ contents' rows, Ready pool tables capacity contents' rows (op.openAll store) := by
  induction built with
  | @values schema rows made => exact ⟨contents, rows, shows, rfl, ⟨rfl, rfl⟩, made, nofun⟩
  | scan planned => exact ⟨contents, ready_scan planned found shows⟩
  | @filter child below predicate ih =>
    obtain ⟨kept, fed⟩ := Run.of_collect_ok opened
    obtain ⟨opened', extended⟩ := Run.feed_extends (keep_grows predicate) fed
    have room' := extended.hasRoom (Run.store_collect .. ▸ room)
    obtain ⟨contents', rows, ready⟩ := ih opened' room'
    exact ⟨contents', _, ready.filter room' opened' opened⟩
  | @aggregate child op column group aggregate below planned ih =>
    obtain ⟨aggregation, -, op_eq⟩ := of_bind_eq_ok planned
    cases op_eq
    cases start_eq : aggregation.start with
    | error e =>
      rw [openAll, start_eq] at opened
      cases opened
    | ok start =>
      have run_eq := openAll_aggregate_eq start_eq child (.ofRows aggregation.schema []) store
      have collected := run_eq ▸ opened
      obtain ⟨results, checked⟩ := Run.of_collect_ok collected
      obtain ⟨aggregator, fed⟩ := Run.of_check_ok checked
      obtain ⟨opened', extended⟩ := Run.feed_extends (fun _ _ => Action.check_grows _) fed
      rw [run_eq, Run.store_collect] at room
      have room' := extended.hasRoom room
      obtain ⟨contents', rows, ready⟩ := ih opened' room'
      exact ⟨contents', ready.aggregate room' opened' start_eq opened⟩
  | @insert child op below txn table planned ih =>
    obtain ⟨rfl, -⟩ := of_insertedInto planned
    obtain ⟨n, fed⟩ := Run.of_collectCount_ok opened
    obtain ⟨opened', extended⟩ := Run.feed_extends (store_grows pool txn table) fed
    have store_eq := congrArg Run.store (Run.collectCount_ok fed (.insert pool txn table) (.ofRows countSchema []))
    have room' := store_eq ▸ room
    obtain ⟨contents', rows, ready⟩ := ih opened' (extended.hasRoom room')
    exact ready.collectCount (fun n _ _ awaits => awaits.store_advances txn table n) fed room' (.insert pool txn table)
      (fun _ _ _ rows_eq => ⟨rows_eq, n, rfl, rfl⟩) _
  | @delete child below txn ih =>
    obtain ⟨n, fed⟩ := Run.of_collectCount_ok opened
    obtain ⟨opened', extended⟩ := Run.feed_extends (remove_grows pool txn) fed
    have store_eq := congrArg Run.store (Run.collectCount_ok fed (.delete pool txn) (.ofRows countSchema []))
    have room' := store_eq ▸ room
    obtain ⟨contents', rows, ready⟩ := ih opened' (extended.hasRoom room')
    exact ready.collectCount (fun n _ _ awaits => awaits.remove_advances txn n) fed room' (.delete pool txn)
      (fun _ _ _ rows_eq => ⟨rows_eq, n, rfl, rfl⟩) _

end Operator

/-! ## Every further opening -/

/-- The call succeeded, and draining the operator that it left gives these rows. The tables are these before and
after. -/
structure Run.Drains (pool : PoolId) (files : List TableFile) (contents : Contents) (rows : List Row)
    (run : Run Unit) : Prop where
  outcome_eq : run.outcome = .ok ()
  drained_eq : (run.operator.drain run.store).outcome = .ok rows
  answers : pool.Answers files contents run.store
  answers_drained : pool.Answers files contents (run.operator.drain run.store).store

namespace Operator

variable {pool : PoolId} {tables : Tables} {capacity : Nat} {contents : Contents} {store : Store} {op op' : Operator}
  {rows : List Row}

theorem Offers.drains (offers : op.Offers pool tables.files contents rows)
    (shows : pool.Shows tables capacity contents store)
    (room : ∀ file ∈ tables.files, (contents file.id).length < UInt32.size) :
    (⟨.ok (), op, store⟩ : Run Unit).Drains pool tables.files contents rows := by
  obtain ⟨op', store', run_eq, shows'⟩ := offers.drain_ok (PoolId.Shows.serves_all room) shows
  refine ⟨rfl, ?_, shows.answers, ?_⟩
  · exact congrArg Run.outcome run_eq
  · exact congrArg Run.store run_eq ▸ shows'.answers

/-- An operator was built from filters, aggregations and changes of tables over given rows or the scan of a table, and
its first opening succeeded. The files must be able to number their pages after it. Then draining it gives some rows.
However it is called after that, the tables stay as the first opening left them, and it can be closed, opened and
drained of the same rows. Unless it is closed it is open, and then it can be rewound and drained of the same rows as
well. Only groups that are worked out again may come in another order, and none are worked out by rewinding. -/
theorem openAll_again {files : List TableFile} (filled : pool.Filled files contents store) (built : op.Built pool store)
    {run : Run Unit} (run_eq : op.openAll store = run) (opened : run.outcome = .ok ())
    (room : run.store.HasRoom files) :
    ∃ now rows, now.Fit files ∧ run.Drains pool files now rows ∧
      ∀ {calls : List QueryCall} {session : Session}, run.operator.session calls run.store = session →
        pool.Answers files now session.store ∧
        (∃ again, op.Regives rows again ∧
          (session.operator.closeAll.openAll session.store).Drains pool files now again) ∧
        (session.operator.isOpen = true → ∃ again, op.Regives rows again ∧ (.openAll ∉ calls → again = rows) ∧
          (session.operator.rewind session.store).Drains pool files now again) ∧
        (.closeAll ∉ calls → session.operator.isOpen = true) := by
  subst run_eq
  obtain ⟨tables, capacity, rfl, shows⟩ := filled.shows
  obtain ⟨now, rows, ready⟩ := built.opens shows.lookUp_eq shows opened room
  have small := ready.shows.room room
  refine ⟨now, rows, ?fit, ?first, ?again⟩
  case fit => exact fun file mem => ⟨small file mem, ready.shows.addressed mem⟩
  case first =>
    have drains := ready.offers.drains ready.shows small
    rw [← opened] at drains
    exact drains
  case again =>
    intro calls session session_eq
    obtain ⟨given, regives, kept, replays, shows', stays⟩ := ready.replays.session_ok ready.shows small calls
    have same : session.operator.regroups = op.regroups := by
      rw [← session_eq, regroups_session, regroups_openAll]
    rw [session_eq] at replays shows' stays
    have regives' : op.Regives rows given := regives.of_regroups_eq (op.regroups_openAll store)
    refine ⟨shows'.answers, ?reopened, fun isOpen => ?rewound, stays (isOpen_openAll opened)⟩
    case reopened =>
      obtain ⟨again, op', store', regiven, run_eq, -, offers, shows''⟩ :=
        replays.closeAll.openAll_ok (PoolId.Shows.serves_all small) shows'
      have same' : session.operator.closeAll.regroups = op.regroups := session.operator.regroups_closeAll.trans same
      refine ⟨again, regives'.trans (regiven.of_regroups_eq same'), ?_⟩
      rw [run_eq]
      exact offers.drains shows'' small
    case rewound =>
      obtain ⟨op', run_eq, offers⟩ := replays.rewind_ok isOpen _
      refine ⟨given, regives', kept, ?_⟩
      rw [run_eq]
      exact offers.drains shows' small

def smallCountSum : Row := ⟨⟨[⟨.int, some "sum()"⟩]⟩, [.int 2], none⟩

/-- Two of three rows are removed by a deletion below a sum. They are not removed again, and the sum stays two. -/
theorem openAll_again_of_deleting :
    ∃ query run session now,
      (((smallScan none).filtered ⟨0, .gt, .constant (.int 1)⟩).deleted ⟨0⟩ ⟨1⟩).aggregated 0 none .sum = .ok query ∧
      query.openAll PoolId.smallStore = run ∧
      run.operator.session [.read .look, .read .take, .rewind, .read .take, .read .take] run.store = session ∧
      run.Drains ⟨0⟩ [smallFile] now [smallCountSum] ∧
      (session.operator.closeAll.openAll session.store).Drains ⟨0⟩ [smallFile] now [smallCountSum] ∧
      (session.operator.rewind session.store).Drains ⟨0⟩ [smallFile] now [smallCountSum] := by
  have found : PoolId.smallStore.catalog.file smallFile.id = .ok smallFile := by decide +kernel
  have named : PoolId.smallStore.catalog.tableName smallFile.id = .ok "t" := by decide +kernel
  have scanned : ofTable ⟨0⟩ smallFile.id none PoolId.smallStore = .ok (smallScan none) PoolId.smallStore :=
    Action.bind_ok (TableScan.plan_ok found named ⟨0⟩ none)
  obtain ⟨query, planned, opened, room, drained⟩ : ∃ query,
      (((smallScan none).filtered ⟨0, .gt, .constant (.int 1)⟩).deleted ⟨0⟩ ⟨1⟩).aggregated 0 none .sum = .ok query ∧
      (query.openAll PoolId.smallStore).outcome = .ok () ∧
      (query.openAll PoolId.smallStore).store.HasRoom [smallFile] ∧
      ((query.openAll PoolId.smallStore).operator.drain (query.openAll PoolId.smallStore).store).outcome =
        .ok [smallCountSum] :=
    ⟨_, rfl, by decide +kernel, by decide +kernel, by decide +kernel⟩
  have built : query.Built ⟨0⟩ PoolId.smallStore :=
    .aggregate (.delete (.filter (.scan scanned) ⟨0, .gt, .constant (.int 1)⟩) ⟨1⟩) planned
  obtain ⟨now, rows, -, drains, again⟩ := openAll_again PoolId.filled_small built rfl opened room
  cases drains.drained_eq.symm.trans drained
  have ran : (query.openAll PoolId.smallStore).operator.session
      [.read .look, .read .take, .rewind, .read .take, .read .take] (query.openAll PoolId.smallStore).store = _ := rfl
  obtain ⟨-, ⟨reopened, regives, reopened_drains⟩, rewound, stays⟩ := again ran
  obtain ⟨again, -, kept, rewound_drains⟩ := rewound (stays (by simp))
  cases List.perm_singleton.mp regives.perm
  cases kept (by simp)
  exact ⟨query, _, _, now, planned, rfl, ran, drains, reopened_drains, rewound_drains⟩

end Operator

end RowStore
