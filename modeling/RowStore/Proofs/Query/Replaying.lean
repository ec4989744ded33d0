import RowStore.Proofs.Query.Batches
import RowStore.Proofs.Query.Exhaustion
import RowStore.Proofs.Query.Inserting

/-!
# Operators that were opened before

An operator that changes tables keeps the number of changes, and opens nothing below it again. What is above it is
worked out again from that number. Without such an operator all is worked out from rows that only reading changes
nothing of. So further openings give the rows that the first one gave, and leave the tables as they are. Groups that are
worked out again may come in another order, and nothing here rests on the order in which they came before.
-/

namespace RowStore

theorem Aggregation.compute_perm {aggregation : Aggregation} {below below' rows : List Row}
    (fits : ∀ row ∈ below, row.Fits) (perm : below'.Perm below) (computed : aggregation.compute below = .ok rows) :
    ∃ rows', aggregation.compute below' = .ok rows' ∧ rows'.Perm rows := by
  obtain ⟨start, start_eq, computed⟩ := of_bind_eq_ok computed
  obtain ⟨last, merged, given⟩ := of_bind_eq_ok computed
  obtain ⟨accepted, rfl⟩ := (start.foldlM_merge_eq_ok_iff below).mp merged
  have accepted' : ∀ row ∈ below', start.accepts row = true := fun row mem => accepted row (perm.mem_iff.mp mem)
  have none : start.groups = .empty := congrArg Aggregator.groups (Aggregator.of_ofType_eq_ok start_eq)
  -- A row is taken in or refused whatever came before it, so the same rows are taken in.
  have took := (start.took_nothing none).takeAll fits
  have took' := (start.took_nothing none).takeAll fun row mem => fits row (perm.mem_iff.mp mem)
  rw [Aggregator.takeAll_snd, List.nil_append] at took took'
  obtain ⟨rows', given', rows_perm⟩ := took.results_perm took' (perm.symm.filter _) given
  refine ⟨rows', ?_, rows_perm⟩
  rw [compute_eq start_eq, (start.foldlM_merge_eq_ok_iff below').mpr ⟨accepted', rfl⟩]
  exact given'

namespace Operator

variable {pool : PoolId} {tables : Tables} {capacity : Nat} {files : List TableFile} {contents : Contents}
  {inv : Store → Prop} {store : Store} {op child : Operator} {rows below : List Row}

/-! ## Groups worked out again -/

/-- The rows that the operator gives are groups, or picked from groups, that are worked out at each opening. A number of
changes is kept, whatever it counts. -/
def regroups : Operator → Bool
  | .filter _ child _ => child.regroups
  | .aggregate .. => true
  | .values _ | .scan _ | .insert .. | .delete .. => false

/-- An operator that gave some rows gave these again. They are the same rows, in the same order unless groups were
worked out again. -/
structure Regives (op : Operator) (rows again : List Row) : Prop where
  perm : again.Perm rows
  eq : op.regroups = false → again = rows

theorem Regives.refl (op : Operator) (rows : List Row) : op.Regives rows rows := ⟨.refl rows, fun _ => rfl⟩

theorem Regives.trans {rows' rows'' : List Row} (h : op.Regives rows rows') (h' : op.Regives rows' rows'') :
    op.Regives rows rows'' :=
  ⟨h'.perm.trans h.perm, fun kept => (h'.eq kept).trans (h.eq kept)⟩

theorem Regives.of_regroups_eq {op' : Operator} {again : List Row} (h : op'.Regives rows again)
    (same : op'.regroups = op.regroups) : op.Regives rows again :=
  ⟨h.perm, fun kept => h.eq (same.trans kept)⟩

theorem Buffers.regroups_eq {parent : RowBuffer → Operator} (h : Buffers parent) (out out' : RowBuffer) :
    (parent out).regroups = (parent out').regroups := by
  cases h <;> rfl

theorem regroups_of_isScan (isScan : op.isScan = true) : op.regroups = false := by
  cases op with
  | scan source => rfl
  | values | filter | aggregate | insert | delete => cases isScan

theorem regroups_openAll (op : Operator) (store : Store) : (op.openAll store).operator.regroups = op.regroups := by
  induction op generalizing store with
  | values out | scan source => rfl
  | filter predicate child out ih =>
    unfold openAll Run.collect
    dsimp only
    split
    all_goals exact (congrArg regroups (Run.operator_feed ..)).trans (ih store)
  | aggregate aggregation child out ih =>
    unfold openAll Run.collect
    cases aggregation.start with
    | error e => rfl
    | ok start =>
      dsimp only
      split <;> rfl
  | insert pool txn table done child out ih | delete pool txn done child out ih =>
    unfold openAll Run.collectCount
    dsimp only
    split <;> rfl

theorem regroups_closeAll (op : Operator) : op.closeAll.regroups = op.regroups := by
  induction op with
  | filter predicate child out ih => exact ih
  | values | scan | aggregate | insert | delete => rfl

theorem regroups_answer (op : Operator) (store : Store) (call : QueryCall) :
    (op.answer store call).operator.regroups = op.regroups := by
  rcases op.scan_or_buffers with ⟨source, rfl⟩ | ⟨parent, out, buffers, rfl⟩
  · exact regroups_of_isScan ((scan source).isScan_answer store call)
  · by_cases opening : call = .openAll
    · subst opening
      exact regroups_openAll _ store
    · by_cases closing : call = .closeAll
      · subst closing
        exact regroups_closeAll _
      · obtain ⟨out', op_eq, -⟩ := buffers.answer_keeps opening closing out store
        rw [op_eq]
        exact buffers.regroups_eq out' out

theorem regroups_session (op : Operator) (calls : List QueryCall) (store : Store) :
    (op.session calls store).operator.regroups = op.regroups := by
  induction calls generalizing op store with
  | nil => rfl
  | cons call calls ih => exact (ih _ _).trans (op.regroups_answer store call)

/-! ## Opening again -/

/-- The operator was opened and gives these rows, worked out from rows that can be read again. What is below a change
that was made does not matter any more. -/
def Replays (pool : PoolId) (files : List TableFile) (contents : Contents) : Operator → List Row → Prop
  | .values out, rows => out.rows = rows
  | .scan source, rows =>
    Tracks pool files contents source ∧ rows = (contents source.table).rows.map source.present
  | .filter predicate child out, rows =>
    out.rows = rows ∧ ∃ below, child.Replays pool files contents below ∧ (∀ row ∈ below, predicate.Applies row) ∧
      rows = below.filter predicate.keeps
  | .aggregate aggregation child out, rows =>
    out.rows = rows ∧ ∃ below, child.Replays pool files contents below ∧ (∀ row ∈ below, row.Fits) ∧
      aggregation.compute below = .ok rows
  | .insert _ _ _ done _ out, rows | .delete _ _ done _ out, rows =>
    out.rows = rows ∧ ∃ n, done = some n ∧ rows = [countRow n]

namespace Replays

theorem rows_eq {parent : RowBuffer → Operator} {out : RowBuffer}
    (h : (parent out).Replays pool files contents rows) (buffers : Buffers parent) : out.rows = rows := by
  cases buffers with
  | values => exact h
  | filter | aggregate | insert | delete => exact h.1

theorem congr {parent : RowBuffer → Operator} {out out' : RowBuffer} (h : (parent out).Replays pool files contents rows)
    (buffers : Buffers parent) (rows_eq : out'.rows = out.rows) : (parent out').Replays pool files contents rows := by
  cases buffers with
  | values => exact rows_eq.trans h
  | filter | aggregate | insert | delete => exact ⟨rows_eq.trans h.1, h.2⟩

theorem openAll_ok (h : op.Replays pool files contents rows)
    (serves : ∀ file ∈ files, file.Serves pool (contents file.id) inv) (here : inv store) :
    ∃ again op' store', op.Regives rows again ∧ op.openAll store = ⟨.ok (), op', store'⟩ ∧
      op'.Replays pool files contents again ∧ op'.Offers pool files contents again ∧ inv store' := by
  induction op generalizing rows store with
  | values out => exact ⟨rows, _, store, .refl _ rows, rfl, h, ⟨rfl, h.symm⟩, here⟩
  | scan source =>
    obtain ⟨tracks, rows_eq⟩ := h
    have tracks' : Tracks pool files contents { source with cursor := source.cursor.opened } :=
      ⟨tracks.pool_eq, tracks.mem, tracks.table_eq, Nat.zero_le _⟩
    exact ⟨rows, _, store, .refl _ rows, rfl, ⟨tracks', rows_eq⟩,
      ⟨tracks.pool_eq, tracks.mem, tracks.table_eq, rfl, rows_eq⟩, here⟩
  | filter predicate child out ih =>
    obtain ⟨-, below, replays, applies, rfl⟩ := h
    obtain ⟨below', child', store₁, regives, opened, replays', offers, here₁⟩ := ih replays here
    have applies' : ∀ row ∈ below', predicate.Applies row := fun row mem => applies row (regives.perm.mem_iff.mp mem)
    obtain ⟨store', here', ⟨-, schema, run_eq⟩ | ⟨fails, -⟩⟩ :=
      openAll_filter opened rfl offers serves here₁ predicate out
    · refine ⟨_, _, store', ⟨regives.perm.filter _, fun kept => ?_⟩, run_eq, ⟨rfl, below', replays', applies', rfl⟩,
        ⟨rfl, rfl⟩, here'⟩
      rw [regives.eq kept]
    · exact absurd applies' fails
  | aggregate aggregation child out ih =>
    obtain ⟨-, below, replays, fits, computed⟩ := h
    obtain ⟨below', child', store₁, regives, opened, replays', offers, here₁⟩ := ih replays here
    have fits' : ∀ row ∈ below', row.Fits := fun row mem => fits row (regives.perm.mem_iff.mp mem)
    obtain ⟨again, computed', perm⟩ := Aggregation.compute_perm fits regives.perm computed
    obtain ⟨start, start_eq, -⟩ := of_bind_eq_ok computed
    obtain ⟨store', here', ⟨found, found_eq, run_eq⟩ | ⟨⟨e, failed⟩, -⟩⟩ :=
      openAll_aggregate opened rfl offers serves here₁ start_eq out
    · cases computed'.symm.trans found_eq
      exact ⟨again, _, store', ⟨perm, nofun⟩, run_eq, ⟨rfl, below', replays', fits', computed'⟩, ⟨rfl, rfl⟩, here'⟩
    · cases computed'.symm.trans failed
  | insert pool txn table done child out =>
    obtain ⟨-, n, rfl, rfl⟩ := h
    exact ⟨_, _, store, .refl _ _, rfl, ⟨rfl, n, rfl, rfl⟩, ⟨rfl, rfl⟩, here⟩
  | delete pool txn done child out =>
    obtain ⟨-, n, rfl, rfl⟩ := h
    exact ⟨_, _, store, .refl _ _, rfl, ⟨rfl, n, rfl, rfl⟩, ⟨rfl, rfl⟩, here⟩

theorem closeAll (h : op.Replays pool files contents rows) : op.closeAll.Replays pool files contents rows := by
  induction op generalizing rows with
  | values out => exact h
  | scan source => exact ⟨⟨h.1.pool_eq, h.1.mem, h.1.table_eq, h.1.within⟩, h.2⟩
  | filter predicate child out ih =>
    obtain ⟨rows_eq, below, replays, rest⟩ := h
    exact ⟨rows_eq, below, ih replays, rest⟩
  | aggregate aggregation child out ih =>
    obtain ⟨rows_eq, below, replays, rest⟩ := h
    exact ⟨rows_eq, below, ih replays, rest⟩
  | insert | delete => exact h

/-! ## Calls in between -/

theorem rewind_ok (h : op.Replays pool files contents rows) (isOpen : op.isOpen = true) (store : Store) :
    ∃ op', op.rewind store = ⟨.ok (), op', store⟩ ∧ op'.Offers pool files contents rows := by
  rcases op.scan_or_buffers with ⟨source, rfl⟩ | ⟨parent, out, buffers, rfl⟩
  · obtain ⟨tracks, rows_eq⟩ := h
    exact ⟨_, rfl, tracks.pool_eq, tracks.mem, tracks.table_eq, rfl, rows_eq⟩
  · rw [buffers.isOpen_eq] at isOpen
    have rewound : out.rewind.map ((), ·) = .ok ((), { out with position := 0 }) := by
      rw [RowBuffer.rewind, if_pos isOpen]
      rfl
    unfold rewind
    rw [buffers.call_eq, callBuffer_ok rewound]
    exact ⟨_, rfl, buffers.offers_iff.mpr ⟨isOpen, (h.rows_eq buffers).symm⟩⟩

/-- Whatever call comes, the tables stay, and so do the rows to give, but for the order of groups when it opens the
operator. An operator that is open stays open unless it is closed. -/
theorem answer_ok (h : op.Replays pool tables.files contents rows) (shows : pool.Shows tables capacity contents store)
    (room : ∀ file ∈ tables.files, (contents file.id).length < UInt32.size) (call : QueryCall) :
    ∃ again, op.Regives rows again ∧ (call ≠ .openAll → again = rows) ∧
      (op.answer store call).operator.Replays pool tables.files contents again ∧
      pool.Shows tables capacity contents (op.answer store call).store ∧
      (op.isOpen = true → call ≠ .closeAll → (op.answer store call).operator.isOpen = true) := by
  by_cases opening : call = .openAll
  · subst opening
    obtain ⟨again, op', store', regives, run_eq, replays, -, shows'⟩ :=
      h.openAll_ok (PoolId.Shows.serves_all room) shows
    have opened : (op.openAll store).operator.isOpen = true := isOpen_openAll (congrArg Run.outcome run_eq)
    unfold answer
    dsimp only
    rw [run_eq] at opened ⊢
    exact ⟨again, regives, absurd rfl, replays, shows', fun _ _ => opened⟩
  · have kept : (op.answer store call).operator.Replays pool tables.files contents rows ∧
        pool.Shows tables capacity contents (op.answer store call).store := by
      rcases op.scan_or_buffers with ⟨source, rfl⟩ | ⟨parent, out, buffers, rfl⟩
      · obtain ⟨cursor', op_eq, tracks, shows'⟩ := h.1.answer_ok shows room call
        rw [op_eq]
        exact ⟨⟨tracks, h.2⟩, shows'⟩
      · by_cases closing : call = .closeAll
        · subst closing
          exact ⟨h.closeAll, shows⟩
        · obtain ⟨out', op_eq, rows_eq, store_eq⟩ := buffers.answer_keeps opening closing out store
          rw [op_eq, store_eq]
          exact ⟨h.congr buffers rows_eq, shows⟩
    exact ⟨rows, .refl op rows, fun _ => rfl, kept.1, kept.2, fun isOpen closing =>
      (op.isOpen_answer store fun same => absurd same opening).mpr (.inr ⟨isOpen, closing⟩)⟩

theorem session_ok (h : op.Replays pool tables.files contents rows) (shows : pool.Shows tables capacity contents store)
    (room : ∀ file ∈ tables.files, (contents file.id).length < UInt32.size) (calls : List QueryCall) :
    ∃ again, op.Regives rows again ∧ (.openAll ∉ calls → again = rows) ∧
      (op.session calls store).operator.Replays pool tables.files contents again ∧
      pool.Shows tables capacity contents (op.session calls store).store ∧
      (op.isOpen = true → .closeAll ∉ calls → (op.session calls store).operator.isOpen = true) := by
  induction calls generalizing op store rows with
  | nil => exact ⟨rows, .refl op rows, fun _ => rfl, h, shows, fun isOpen _ => isOpen⟩
  | cons call calls ih =>
    obtain ⟨rows₁, regives₁, kept₁, replays₁, shows₁, stays₁⟩ := h.answer_ok shows room call
    obtain ⟨again, regives, kept, replays, shows', stays⟩ := ih replays₁ shows₁
    refine ⟨again, regives₁.trans (regives.of_regroups_eq (op.regroups_answer store call)), fun opening => ?_, replays,
      shows', fun isOpen closing => ?_⟩
    · rw [List.mem_cons, not_or] at opening
      rw [kept opening.2, kept₁ fun same => opening.1 same.symm]
    · rw [List.mem_cons, not_or] at closing
      exact stays (stays₁ isOpen fun same => closing.1 same.symm) closing.2

end Replays

/-! ## All rows at once -/

theorem Offers.drain_ok (offers : op.Offers pool files contents rows)
    (serves : ∀ file ∈ files, file.Serves pool (contents file.id) inv) (here : inv store) :
    ∃ op' store', op.drain store = ⟨.ok rows, op', store'⟩ ∧ inv store' := by
  rcases op.scan_or_buffers with ⟨source, rfl⟩ | ⟨parent, out, buffers, rfl⟩
  · obtain ⟨pool_eq, mem, table_eq, isOpen, rfl⟩ := offers
    obtain ⟨cursor', store', run, here'⟩ := (serves _ mem).drain_ok here source.cursor isOpen pool_eq rfl
    have run' : (return (← TableCursor.drain).map source.present : CursorAction (List Row)) (source.cursor, store) =
        .ok _ (cursor', store') := Action.bind_ok run
    rw [table_eq]
    exact ⟨_, store', callScan_ok run', here'⟩
  · obtain ⟨isOpen, rfl⟩ := buffers.offers_iff.mp offers
    have drained : out.drain = .ok (out.rest, { out with position := max out.position out.rows.length }) := by
      rw [RowBuffer.drain, if_pos isOpen]
    unfold drain
    rw [buffers.call_eq]
    exact ⟨_, store, callBuffer_ok drained, here⟩

end Operator

end RowStore
