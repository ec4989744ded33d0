import RowStore.Proofs.Query.Typing

/-!
# Opening well-typed operators

Opening an operator gives the rows below it to a step, which keeps, counts, stores or removes them. The rows that come
to the step of a well-typed operator are rows of the schema of what is below it. So a comparison of values of one type
never fails, and no row is refused where it is stored for what it is.
-/

namespace RowStore

open RowStore.Store (Settled Spared)

variable {catalog : Catalog} {store : Store} {σ : Type}

/-! ## Giving rows to a step -/

namespace Operator

variable {op : Operator} {parent : RowBuffer → Operator} {out : RowBuffer}

theorem Buffers.feed_eq (h : Buffers parent) (step : σ → Row → Action σ) (acc : σ) :
    (parent out).feed step acc = if out.isOpen then out.rest.foldlM step acc else Action.fail (.refused .notOpen) := by
  cases h <;> rfl

theorem WellTyped.feed_leads (h : op.WellTyped catalog) (settled : store.Settled catalog) {inv : σ → Prop}
    {failed : Failure → Store → Prop} {step : σ → Row → Action σ}
    (stepped : ∀ {acc row store}, inv acc → row.Of op.schema → Settled catalog store →
      Leads (fun acc after => inv acc ∧ after.Settled catalog) failed (step acc row store))
    (spared : ∀ {failure after}, Spared catalog failure after → failed failure after) {acc : σ} (start : inv acc) :
    Leads (fun acc after => inv acc ∧ after.Settled catalog) failed (op.feed step acc store) := by
  rcases op.scan_or_buffers with ⟨source, rfl⟩ | ⟨parent, out, isBuffer, rfl⟩
  · have typed : source.WellTyped catalog := h
    exact feed_scan_leads (TableCursor.feed_reading typed.found
      (fun here of => stepped here (typed.presents _ of)) spared (typed.reading settled) start)
  · rw [isBuffer.feed_eq]
    split
    · let At (rest : List Row) (acc : σ) (store : Store) : Prop :=
        inv acc ∧ (∀ row ∈ rest, row.Of (parent out).schema) ∧ store.Settled catalog
      have stepped' : ∀ {row rest acc store}, At (row :: rest) acc store →
          Leads (At rest) failed (step acc row store) := by
        rintro row rest acc store ⟨here, of, settled⟩
        refine (stepped here (of row List.mem_cons_self) settled).mono ?_ fun _ _ ended => ended
        rintro acc' after ⟨here', settled'⟩
        exact ⟨here', fun other mem => of other (List.mem_cons_of_mem _ mem), settled'⟩
      have begun : At out.rest acc store :=
        ⟨start, fun row mem => isBuffer.of_rows h row (List.mem_of_mem_drop mem), settled⟩
      exact (foldlM_leads stepped' begun).mono (fun _ _ ⟨here, _, settled'⟩ => ⟨here, settled'⟩) fun _ _ ended => ended
    · exact spared ⟨settled, nofun⟩

end Operator

namespace Run.WellTyped

theorem feed {run : Run Unit} (h : run.WellTyped catalog) {inv : σ → Prop} {avoids : Failure → Prop}
    {step : σ → Row → Action σ}
    (stepped : ∀ {acc row store}, inv acc → row.Of run.operator.schema → Settled catalog store →
      Leads (fun acc after => inv acc ∧ after.Settled catalog)
        (fun failure after => after.Settled catalog ∧ avoids failure) (step acc row store))
    (spares : ∀ failure : Failure, ¬failure.OfTypes → avoids failure) {acc : σ} (start : inv acc) :
    (run.feed step acc).WellTyped catalog ∧ (∀ a, (run.feed step acc).outcome = .ok a → inv a) ∧
      ∀ failure, (run.feed step acc).outcome = .error failure → run.outcome = .error failure ∨ avoids failure := by
  cases opened : run.outcome with
  | error failure =>
    rw [Run.feed_error opened]
    exact ⟨⟨h.operator, h.settled⟩, nofun, fun _ same => .inl (by cases same; rfl)⟩
  | ok _ =>
    have led := h.operator.feed_leads h.settled stepped (fun ⟨settled, other⟩ => ⟨settled, spares _ other⟩) start
    unfold Run.feed
    simp only [opened]
    cases fed : run.operator.feed step acc run.store with
    | ok a after =>
      rw [fed] at led
      refine ⟨⟨h.operator, led.2⟩, ?_, nofun⟩
      rintro _ ⟨⟩
      exact led.1
    | error failure after =>
      rw [fed] at led
      refine ⟨⟨h.operator, led.1⟩, nofun, ?_⟩
      rintro _ ⟨⟩
      exact .inr led.2

theorem collect {run : Run (Array Row)} (h : run.WellTyped catalog) {schema : Schema}
    (parent : Operator → RowBuffer → Operator)
    (typed : ∀ out : RowBuffer, (∀ row ∈ out.rows, row.Of schema) → (parent run.operator out).WellTyped catalog)
    (found : ∀ rows, run.outcome = .ok rows → ∀ row ∈ rows, row.Of schema) {out : RowBuffer}
    (before : ∀ row ∈ out.rows, row.Of schema) : (run.collect schema parent out).WellTyped catalog := by
  unfold Run.collect
  split
  · next rows outcome_eq =>
    exact ⟨typed _ fun row mem => found rows outcome_eq row (Array.mem_toList_iff.mp mem), h.settled⟩
  · exact ⟨typed out before, h.settled⟩

theorem collectCount {run : Run Int32} (h : run.WellTyped catalog)
    (parent : Option Int32 → Operator → RowBuffer → Operator)
    (typed : ∀ done, ∀ out : RowBuffer, (∀ row ∈ out.rows, row.Of Operator.countSchema) →
      (parent done run.operator out).WellTyped catalog) {out : RowBuffer}
    (before : ∀ row ∈ out.rows, row.Of Operator.countSchema) : (run.collectCount parent out).WellTyped catalog := by
  unfold Run.collectCount
  split
  · next n _ =>
    refine ⟨typed _ _ fun row mem => ?_, h.settled⟩
    rw [List.mem_singleton.mp mem]
    exact Operator.of_countRow n
  · exact ⟨typed _ out before, h.settled⟩

end Run.WellTyped

/-! ## Steps -/

namespace Operator

variable {schema : Schema} {row : Row} {predicate : Predicate} {rows : Array Row} {avoids : Failure → Prop}

theorem keep_leads (settled : store.Settled catalog)
    (refused : ∀ e, predicate.holds row = .error e → avoids (.refused e))
    (before : ∀ row ∈ rows, row.Of schema) (of : row.Of schema) :
    Leads (fun rows after => (∀ row ∈ rows, row.Of schema) ∧ after.Settled catalog)
      (fun failure after => after.Settled catalog ∧ avoids failure) (keep predicate rows row store) := by
  unfold keep
  cases holds_eq : predicate.holds row with
  | error e => exact ⟨settled, refused e holds_eq⟩
  | ok kept =>
    cases kept with
    | false => exact ⟨before, settled⟩
    | true =>
      refine ⟨fun other mem => ?_, settled⟩
      rcases Array.mem_push.mp mem with old | rfl
      · exact before other old
      · exact of

theorem countOn_spares (settled : store.Settled catalog) (n : Int32) :
    Leads (fun _ => Settled catalog) (Spared catalog) (countOn n store) :=
  (countOn_leads n store).mono (fun _ _ ⟨same, _⟩ => same ▸ settled)
    fun _ _ ⟨same, aborted, _⟩ => ⟨same ▸ settled, aborted ▸ nofun⟩

theorem store_spares (settled : store.Settled catalog) {table : TableId} {file : TableFile}
    (found : catalog.file table = .ok file) (of : row.Of file.schema) (pool : PoolId) (txn : TxnId) (n : Int32) :
    Leads (fun _ => Settled catalog) (Spared catalog) (Operator.store pool txn table n row store) := by
  have inserted : Leads (fun _ => Settled catalog) (Spared catalog) (pool.insert txn table row store) :=
    settled.insert found of
  exact inserted.discard.bind fun _ after settled' => countOn_spares settled' n

theorem remove_leads (settled : store.Settled catalog) (pool : PoolId) (txn : TxnId) (n : Int32) (row : Row) :
    Leads (fun _ => Settled catalog) (fun _ => Settled catalog) (remove pool txn n row store) := by
  have removed : Leads (fun _ => Settled catalog) (fun _ => Settled catalog) (pool.delete txn row store) :=
    settled.keeps (PoolId.delete_steady Page.lasting_formed)
  exact removed.bind fun _ after settled' =>
    (countOn_spares settled' n).mono (fun _ _ ended => ended) fun _ _ => And.left

end Operator

theorem Aggregator.of_results {aggregator : Aggregator} {schema : Schema} {rows : List Row}
    (h : aggregator.results schema = .ok rows) : ∀ row ∈ rows, row.Of schema := by
  intro row mem
  obtain ⟨⟨key, tally⟩, -, made⟩ := of_mapM_eq_ok h row mem
  obtain ⟨result, -, made⟩ := of_bind_eq_ok made
  obtain ⟨group, -, made⟩ := of_bind_eq_ok made
  exact Row.of_ofValues made

/-! ## Opening -/

namespace Run.WellTyped

variable {run : Run Unit} {predicate : Predicate}

theorem feed_keep (h : run.WellTyped catalog) {avoids : Failure → Prop}
    (refused : ∀ row, row.Of run.operator.schema → ∀ e, predicate.holds row = .error e → avoids (.refused e))
    (spares : ∀ failure : Failure, ¬failure.OfTypes → avoids failure) :
    (run.feed (Operator.keep predicate) #[]).WellTyped catalog ∧
      (∀ rows, (run.feed (Operator.keep predicate) #[]).outcome = .ok rows → ∀ row ∈ rows, row.Of run.operator.schema) ∧
      ∀ failure, (run.feed (Operator.keep predicate) #[]).outcome = .error failure →
        run.outcome = .error failure ∨ avoids failure :=
  h.feed (fun before of settled => Operator.keep_leads settled (refused _ of) before of) spares
    fun _ mem => absurd mem (Array.not_mem_empty _)

theorem feed_check {step : σ → Row → Except StoreError σ} {acc : σ} (h : run.WellTyped catalog) :
    (run.feed (fun acc row => Action.check (step acc row)) acc).WellTyped catalog := by
  have stepped : ∀ {acc row store}, True → row.Of run.operator.schema → Settled catalog store →
      Leads (fun _ after => True ∧ after.Settled catalog) (fun _ after => after.Settled catalog ∧ True)
        (Action.check (step acc row) store) := by
    intro acc row store _ _ settled
    cases step acc row with
    | ok acc' => exact ⟨trivial, settled⟩
    | error e => exact ⟨settled, trivial⟩
  exact (h.feed stepped (fun _ _ => trivial) trivial).1

theorem feed_store (h : run.WellTyped catalog) {table : TableId} {file : TableFile}
    (found : catalog.file table = .ok file) (schema_eq : file.schema = run.operator.schema) (pool : PoolId)
    (txn : TxnId) :
    (run.feed (Operator.store pool txn table) 0).WellTyped catalog ∧
      ∀ failure, (run.feed (Operator.store pool txn table) 0).outcome = .error failure →
        run.outcome = .error failure ∨ ¬failure.OfTypes := by
  have stepped : ∀ {n row store}, True → row.Of run.operator.schema → Settled catalog store →
      Leads (fun _ after => True ∧ after.Settled catalog) (Spared catalog)
        (Operator.store pool txn table n row store) :=
    fun {n row store} _ of settled => (Operator.store_spares settled found (schema_eq ▸ of) pool txn n).mono
      (fun _ _ settled' => ⟨trivial, settled'⟩) fun _ _ ended => ended
  obtain ⟨typed, -, fails⟩ := h.feed stepped (fun _ other => other) trivial
  exact ⟨typed, fails⟩

theorem feed_remove (h : run.WellTyped catalog) (pool : PoolId) (txn : TxnId) :
    (run.feed (Operator.remove pool txn) 0).WellTyped catalog := by
  have stepped : ∀ {n row store}, True → row.Of run.operator.schema → Settled catalog store →
      Leads (fun _ after => True ∧ after.Settled catalog) (fun _ after => after.Settled catalog ∧ True)
        (Operator.remove pool txn n row store) :=
    fun {n row store} _ _ settled => (Operator.remove_leads settled pool txn n row).mono
      (fun _ _ settled' => ⟨trivial, settled'⟩) fun _ _ settled' => ⟨settled', trivial⟩
  exact (h.feed stepped (fun _ _ => trivial) trivial).1

theorem check {α β : Type} {run : Run α} (h : run.WellTyped catalog) (next : α → Except StoreError β) :
    (run.check next).WellTyped catalog := ⟨h.operator, h.settled⟩

end Run.WellTyped

theorem Run.of_results_check (run : Run Aggregator) (schema : Schema) (rows : Array Row)
    (h : (run.check fun agg => (agg.results schema).map List.toArray).outcome = .ok rows) :
    ∀ row ∈ rows, row.Of schema := by
  unfold Run.check at h
  cases outcome_eq : run.outcome with
  | error failure =>
    rw [outcome_eq] at h
    cases h
  | ok agg =>
    rw [outcome_eq] at h
    cases results_eq : agg.results schema with
    | error e =>
      simp only [results_eq, Except.bind] at h
      cases h
    | ok given =>
      simp only [results_eq, Except.bind] at h
      cases h
      exact fun row mem => Aggregator.of_results results_eq row (List.mem_toArray.mp mem)

namespace Operator.WellTyped

variable {op child : Operator} {out : RowBuffer}

theorem openAll (h : op.WellTyped catalog) (settled : store.Settled catalog) :
    (op.openAll store).WellTyped catalog := by
  induction op generalizing store with
  | values out => exact ⟨h, settled⟩
  | scan source => exact ⟨⟨h.found, h.presents, nofun, nofun⟩, settled⟩
  | filter predicate child out ih =>
    have opened := ih h.1 settled
    obtain ⟨fed, found, -⟩ :=
      @Run.WellTyped.feed_keep _ _ predicate opened (fun _ => True) (fun _ _ _ _ => trivial) fun _ _ => trivial
    have typed : ∀ out : RowBuffer, (∀ row ∈ out.rows, row.Of (child.openAll store).operator.schema) →
        (filter predicate ((child.openAll store).feed (keep predicate) #[]).operator out).WellTyped catalog := by
      rw [Run.operator_feed]
      exact fun out rows_of => ⟨opened.operator, rows_of⟩
    have before : ∀ row ∈ out.rows, row.Of (child.openAll store).operator.schema := by
      rw [schema_openAll]
      exact h.2
    unfold Operator.openAll
    dsimp only
    rw [Run.operator_feed]
    exact fed.collect _ typed found before
  | aggregate aggregation child out ih =>
    cases start_eq : aggregation.start with
    | error e =>
      unfold Operator.openAll
      rw [start_eq]
      exact ⟨h, settled⟩
    | ok start =>
      rw [openAll_aggregate_eq start_eq]
      have fed : ((child.openAll store).feed (fun agg row => Action.check (agg.merge row)) start).WellTyped catalog :=
        (ih h.1 settled).feed_check
      exact (fed.check _).collect (.aggregate aggregation) (fun out rows_of => ⟨fed.operator, rows_of⟩)
        (Run.of_results_check _ _) h.2
  | insert pool txn table done child out ih =>
    obtain ⟨⟨below, file, found, schema_eq⟩, before⟩ := h
    unfold Operator.openAll
    cases done with
    -- Rows were stored before: the count of then is given again, and nothing below is opened.
    | some n =>
      have kept : (⟨.ok n, child, store⟩ : Run Int32).WellTyped catalog := ⟨below, settled⟩
      exact kept.collectCount (.insert pool txn table)
        (fun done out rows_of => ⟨⟨below, file, found, schema_eq⟩, rows_of⟩) before
    | none =>
      have schema_eq' : file.schema = (child.openAll store).operator.schema := by rw [schema_eq, schema_openAll]
      obtain ⟨fed, -⟩ := (ih below settled).feed_store found schema_eq' pool txn
      have typed : ∀ done (out : RowBuffer), (∀ row ∈ out.rows, row.Of countSchema) → (insert pool txn table done
          ((child.openAll store).feed (Operator.store pool txn table) 0).operator out).WellTyped catalog := by
        rw [Run.operator_feed]
        exact fun done out rows_of => ⟨⟨(ih below settled).operator, file, found, schema_eq'⟩, rows_of⟩
      exact fed.collectCount _ typed before
  | delete pool txn done child out ih =>
    obtain ⟨below, before⟩ := h
    unfold Operator.openAll
    cases done with
    | some n =>
      have kept : (⟨.ok n, child, store⟩ : Run Int32).WellTyped catalog := ⟨below, settled⟩
      exact kept.collectCount (.delete pool txn) (fun done out rows_of => ⟨below, rows_of⟩) before
    | none =>
      have fed := (ih below settled).feed_remove pool txn
      exact fed.collectCount (.delete pool txn) (fun done out rows_of => ⟨fed.operator, rows_of⟩) before

theorem answer (h : op.WellTyped catalog) (settled : store.Settled catalog) (call : QueryCall) :
    (op.answer store call).WellTyped catalog := by
  cases call with
  | openAll => exact ⟨(h.openAll settled).operator, (h.openAll settled).settled⟩
  | rewind => exact ⟨(h.rewind settled).operator, (h.rewind settled).settled⟩
  | closeAll => exact ⟨h.closeAll, settled⟩
  | read call =>
    cases call with
    | look => exact ⟨(h.hasNext settled).operator, (h.hasNext settled).settled⟩
    | take => exact ⟨(h.next settled).operator, (h.next settled).settled⟩

end Operator.WellTyped

/-! ## Failures of openings -/

theorem Run.of_collect_error {run : Run (Array Row)} {schema : Schema} {parent : Operator → RowBuffer → Operator}
    {out : RowBuffer} {failure : Failure} (h : (run.collect schema parent out).outcome = .error failure) :
    run.outcome = .error failure := by
  unfold Run.collect at h
  split at h
  · cases h
  · next outcome_eq =>
    cases h
    exact outcome_eq

theorem Run.of_collectCount_error {run : Run Int32} {parent : Option Int32 → Operator → RowBuffer → Operator}
    {out : RowBuffer} {failure : Failure} (h : (run.collectCount parent out).outcome = .error failure) :
    run.outcome = .error failure := by
  unfold Run.collectCount at h
  split at h
  · cases h
  · next outcome_eq =>
    cases h
    exact outcome_eq

namespace Operator.WellTyped

variable {child : Operator} {out : RowBuffer} {failure : Failure}

theorem of_openAll_filter_error (h : child.WellTyped catalog) (settled : store.Settled catalog) {predicate : Predicate}
    (compares : predicate.Compares child.schema)
    (failed : ((filter predicate child out).openAll store).outcome = .error failure) (ofTypes : failure.OfTypes) :
    (child.openAll store).outcome = .error failure := by
  unfold Operator.openAll at failed
  have refused : ∀ row : Row, row.Of (child.openAll store).operator.schema →
      ∀ e, predicate.holds row = .error e → ¬(Failure.refused e).OfTypes := by
    intro row of e holds_eq
    rw [schema_openAll] at of
    obtain ⟨kept, ok⟩ := compares.applies of.types_eq
    cases holds_eq.symm.trans ok
  obtain ⟨-, -, fails⟩ := (h.openAll settled).feed_keep refused fun _ other => other
  rcases fails failure (Run.of_collect_error failed) with below | other
  · exact below
  · exact absurd ofTypes other

theorem of_openAll_insert_error {pool : PoolId} {txn : TxnId} {table : TableId} {done : Option Int32}
    (h : (insert pool txn table done child out).WellTyped catalog) (settled : store.Settled catalog)
    (failed : ((insert pool txn table done child out).openAll store).outcome = .error failure)
    (ofTypes : failure.OfTypes) : (child.openAll store).outcome = .error failure := by
  obtain ⟨⟨below, file, found, schema_eq⟩, -⟩ := h
  unfold Operator.openAll at failed
  cases done with
  | some n => cases failed
  | none =>
    rw [← child.schema_openAll store] at schema_eq
    obtain ⟨-, fails⟩ := (below.openAll settled).feed_store found schema_eq pool txn
    rcases fails failure (Run.of_collectCount_error failed) with below | other
    · exact below
    · exact absurd ofTypes other

end Operator.WellTyped

end RowStore
