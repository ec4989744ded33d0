import RowStore.Proofs.Query.Sessions
import RowStore.Proofs.Query.TypedOpening

/-!
# Taking rows until there are no more

Giving all rows of an operator to a step comes to taking its rows one by one, and giving each to the step before the
next one is taken. So what an operator that works on the rows below it does can be said of the rows that it takes from
there and of how they end.
-/

namespace RowStore

/-! ## Cursors -/

namespace TableCursor

variable {σ : Type} {cursor : TableCursor} {store : Store} {row : Row} {rest : List Row}

/-- The cursor once it gave a row and has these left of the page. -/
def withRest (cursor : TableCursor) (rest : List Row) : TableCursor := { cursor with peeked := none, current := rest }

theorem lt_of_pageRows? {pool : PoolId} {file : TableFile} {number : UInt32} {rows : List Row} {store' : Store}
    (h : pageRows? pool file number store = .ok (some rows) store') : number.toNat + 1 < UInt32.size := by
  unfold pageRows? at h
  obtain ⟨count, middle, -, h⟩ := Action.of_bind_ok h
  split at h
  · cases h
  · next within =>
    -- The number of pages has 32 bits too, so a page below it leaves one number to spare.
    have lt := UInt32.lt_iff_toNat_lt.mp (UInt32.not_le.mp within)
    have := count.toNat_lt
    change _ < UInt32.size at this
    omega

theorem exists_pagesLeft (cursor : TableCursor) : ∃ left, cursor.pagesLeft = left + 1 := by
  have := cursor.nextPage.toNat_lt
  change _ < UInt32.size at this
  exact ⟨UInt32.size - cursor.nextPage.toNat - 1, by unfold pagesLeft; omega⟩

theorem pagesLeft_turned {rows : List Row} {store' : Store}
    (h : pageRows? cursor.pool cursor.file cursor.nextPage store = .ok (some rows) store') :
    cursor.pagesLeft = (cursor.turned rows).pagesLeft + 1 := by
  have lt := lt_of_pageRows? h
  unfold pagesLeft
  rw [nextPage_turned lt]
  omega

theorem next_of_pending (isOpen : cursor.isOpen = true) (pending_eq : cursor.pending = row :: rest) :
    next (cursor, store) = .ok (some row) (cursor.withRest rest, store) := by
  unfold next
  rw [Action.bind_ok (requireOpen_ok isOpen store), Action.bind_ok (read_eq ..)]
  cases peeked : cursor.peeked with
  | some first =>
    rw [pending, peeked] at pending_eq
    cases pending_eq
    rfl
  | none =>
    obtain ⟨left, left_eq⟩ := cursor.exists_pagesLeft
    have current : cursor.current = row :: rest := by simpa [pending, peeked] using pending_eq
    dsimp only
    unfold fetchRow
    rw [Action.bind_ok (read_eq ..), left_eq]
    unfold advance takeRow
    simp only [bind_assoc]
    rw [Action.bind_ok (read_eq ..), current]
    simp only [withRest, ← peeked]
    rfl

theorem next_of_spent (isOpen : cursor.isOpen = true) (spent : cursor.pending = []) :
    next (cursor, store) = match pageRows? cursor.pool cursor.file cursor.nextPage store with
      | .ok none store => .ok none (cursor, store)
      | .ok (some rows) store => next (cursor.turned rows, store)
      | .error failure store => .error failure (cursor, store) := by
  obtain ⟨peeked, current⟩ : cursor.peeked = none ∧ cursor.current = [] := by simpa [pending] using spent
  obtain ⟨left, left_eq⟩ := cursor.exists_pagesLeft
  have fetch : next (cursor, store) = advance (left + 1) (cursor, store) := by
    unfold next
    rw [Action.bind_ok (requireOpen_ok isOpen store), Action.bind_ok (read_eq ..), peeked]
    dsimp only
    unfold fetchRow
    rw [Action.bind_ok (read_eq ..), left_eq]
  rw [fetch]
  unfold advance takeRow
  simp only [bind_assoc]
  rw [Action.bind_ok (read_eq ..), current]
  refine (turn_eq (pure none) (advance left) cursor store).trans ?_
  cases paged : pageRows? cursor.pool cursor.file cursor.nextPage store with
  | error failure store' => rfl
  | ok rows? store' =>
    cases rows? with
    | none => rfl
    | some rows =>
      have left_eq' : (cursor.turned rows).pagesLeft = left := by
        have := pagesLeft_turned paged
        omega
      have isOpen' : (cursor.turned rows).isOpen = true := isOpen
      have peeked' : (cursor.turned rows).peeked = none := peeked
      dsimp only
      unfold next
      rw [Action.bind_ok (requireOpen_ok isOpen' store'), Action.bind_ok (read_eq ..), peeked']
      dsimp only
      unfold fetchRow
      rw [Action.bind_ok (read_eq ..), left_eq']

theorem feed_eq (isOpen : cursor.isOpen = true) (step : σ → Row → Action σ) (acc : σ) :
    feed step acc (cursor, store) = (feedRows step cursor.pending acc >>= feedPages step cursor.pagesLeft)
      ({ cursor with peeked := none }, store) := by
  unfold feed
  rw [Action.bind_ok (requireOpen_ok isOpen store), Action.bind_ok (read_eq ..), Action.bind_ok (change_eq ..)]
  rfl

theorem feed_of_pending (isOpen : cursor.isOpen = true) (pending_eq : cursor.pending = row :: rest)
    (step : σ → Row → Action σ) (acc : σ) :
    feed step acc (cursor, store) = (onStore (step acc row) >>= feed step) (cursor.withRest rest, store) := by
  rw [feed_eq isOpen, pending_eq]
  unfold feedRows
  simp only [bind_assoc]
  rw [Action.bind_ok (change_eq ..)]
  cases stepped : step acc row store with
  | error failure store' =>
    rw [Action.bind_error (onStore_error stepped), Action.bind_error (onStore_error stepped)]
    rfl
  | ok acc' store' =>
    rw [Action.bind_ok (onStore_ok stepped), Action.bind_ok (onStore_ok stepped)]
    have isOpen' : (cursor.withRest rest).isOpen = true := isOpen
    rw [feed_eq isOpen']
    rfl

theorem feed_of_spent (isOpen : cursor.isOpen = true) (spent : cursor.pending = []) (step : σ → Row → Action σ)
    (acc : σ) :
    feed step acc (cursor, store) = match pageRows? cursor.pool cursor.file cursor.nextPage store with
      | .ok none store => .ok acc (cursor, store)
      | .ok (some rows) store => feed step acc (cursor.turned rows, store)
      | .error failure store => .error failure (cursor, store) := by
  obtain ⟨peeked, current⟩ : cursor.peeked = none ∧ cursor.current = [] := by simpa [pending] using spent
  obtain ⟨left, left_eq⟩ := cursor.exists_pagesLeft
  have same : ({ cursor with peeked := none } : TableCursor) = cursor := by rw [← peeked]
  have none_left : feedRows step [] acc (cursor, store) = .ok acc (cursor, store) := rfl
  rw [feed_eq isOpen, spent, same, left_eq, Action.bind_ok none_left]
  unfold feedPages
  rw [turn_eq]
  cases paged : pageRows? cursor.pool cursor.file cursor.nextPage store with
  | error failure store' => rfl
  | ok rows? store' =>
    cases rows? with
    | none => rfl
    | some rows =>
      have left_eq' : (cursor.turned rows).pagesLeft = left := by
        have := pagesLeft_turned paged
        omega
      have isOpen' : (cursor.turned rows).isOpen = true := isOpen
      have peeked' : (cursor.turned rows).peeked = none := peeked
      have same' : ({ cursor.turned rows with peeked := none } : TableCursor) = cursor.turned rows := by
        rw [← peeked']
      dsimp only
      rw [feed_eq isOpen', left_eq', same', Action.bind_ok (read_eq ..), pending, peeked']
      rfl

theorem feed_eq_next (step : σ → Row → Action σ) (acc : σ) (s : TableCursor × Store) :
    feed step acc s = (next >>= fun row? => match row? with
      | none => pure acc
      | some row => onStore (step acc row) >>= feed step) s := by
  obtain ⟨cursor, store⟩ := s
  generalize left_eq : cursor.pagesLeft = left
  induction left generalizing cursor store with
  | zero =>
    obtain ⟨left, left_eq'⟩ := cursor.exists_pagesLeft
    omega
  | succ left ih =>
    cases isOpen : cursor.isOpen with
    | false =>
      have refused := requireOpen_error isOpen store
      have taken : next (cursor, store) = .error (.refused .notOpen) (cursor, store) := Action.bind_error refused
      rw [Action.bind_error taken]
      exact Action.bind_error refused
    | true =>
      cases pending_eq : cursor.pending with
      | cons row rest => rw [feed_of_pending isOpen pending_eq, Action.bind_ok (next_of_pending isOpen pending_eq)]
      | nil =>
        rw [feed_of_spent isOpen pending_eq]
        have taken : next (cursor, store) = _ := next_of_spent isOpen pending_eq
        cases paged : pageRows? cursor.pool cursor.file cursor.nextPage store with
        | error failure store' =>
          rw [paged] at taken
          rw [Action.bind_error taken]
        | ok rows? store' =>
          rw [paged] at taken
          cases rows? with
          | none =>
            rw [Action.bind_ok taken]
            rfl
          | some rows =>
            have left_eq' : (cursor.turned rows).pagesLeft = left := by
              have := pagesLeft_turned paged
              omega
            have turned := ih (cursor.turned rows) store' left_eq'
            simp only [bind, EStateM.bind, taken] at turned ⊢
            exact turned

end TableCursor

/-! ## Operators -/

namespace Operator

variable {σ : Type} {op : Operator} {store : Store}

theorem next_scan (source : TableScan) (store : Store) :
    (scan source).next store = match TableCursor.next (source.cursor, store) with
      | .ok row? (cursor, store) => ⟨.ok (row?.map source.present), .scan { source with cursor }, store⟩
      | .error failure (cursor, store) => ⟨.error failure, .scan { source with cursor }, store⟩ := by
  unfold next call callScan
  dsimp only
  cases taken : TableCursor.next (source.cursor, store) with
  | ok row? s => rw [Action.bind_ok taken]; rfl
  | error failure s => rw [Action.bind_error taken]

theorem feed_scan (source : TableScan) (step : σ → Row → Action σ) (acc : σ) (store : Store) :
    (scan source).feed step acc store =
      match TableCursor.feed (fun acc row => step acc (source.present row)) acc (source.cursor, store) with
      | .ok acc (_, store) => .ok acc store
      | .error failure (_, store) => .error failure store := rfl

/-- Giving all rows of an operator to a step is taking the next one, and if there is one, giving it to the step before
going on. -/
theorem feed_eq_next (op : Operator) (step : σ → Row → Action σ) (acc : σ) (store : Store) :
    op.feed step acc store = match (op.next store).outcome with
      | .error failure => .error failure (op.next store).store
      | .ok none => .ok acc (op.next store).store
      | .ok (some row) => (step acc row >>= (op.next store).operator.feed step) (op.next store).store := by
  rcases op.scan_or_buffers with ⟨source, rfl⟩ | ⟨parent, out, isBuffer, rfl⟩
  · rw [next_scan, feed_scan, TableCursor.feed_eq_next]
    cases taken : TableCursor.next (source.cursor, store) with
    | error failure s => rw [Action.bind_error taken]
    | ok row? s =>
      obtain ⟨cursor, store'⟩ := s
      rw [Action.bind_ok taken]
      cases row? with
      | none => rfl
      | some row =>
        dsimp only [Option.map_some]
        cases stepped : step acc (source.present row) store' with
        | error failure store'' =>
          rw [Action.bind_error (TableCursor.onStore_error stepped), Action.bind_error stepped]
        | ok acc' store'' =>
          rw [Action.bind_ok (TableCursor.onStore_ok stepped), Action.bind_ok stepped]
          rfl
  · cases isOpen : out.isOpen with
    | false =>
      have refused : (parent out).next store = ⟨.error (.refused .notOpen), parent out, store⟩ := by
        unfold next
        rw [isBuffer.call_eq, callBuffer, RowBuffer.next_shut isOpen]
      have shut : (parent out).feed step acc = Action.fail (.refused .notOpen) := by
        rw [isBuffer.feed_eq, isOpen]
        rfl
      rw [refused, shut]
      rfl
    | true =>
      obtain ⟨out', next_eq, isOpen', -, rest_eq⟩ := isBuffer.next_ok isOpen store
      have feed_eq : (parent out).feed step acc = out.rest.foldlM step acc := by
        rw [isBuffer.feed_eq, if_pos isOpen]
      have feed_eq' : (parent out').feed step = fun acc => out.rest.tail.foldlM step acc := by
        funext acc
        rw [isBuffer.feed_eq, if_pos isOpen', rest_eq]
      rw [next_eq, feed_eq, feed_eq']
      cases out.rest with
      | nil => rfl
      | cons row rows => rw [List.foldlM_cons]; rfl

/-! ## The rows that are taken -/

/-- Taking rows one by one gives these, and then there are no more, or a call fails. -/
def Yields (op : Operator) (store : Store) (rows : List Row) (ending : Except Failure Unit) : Prop :=
  match rows with
  | [] => (op.next store).outcome = ending.map fun _ => none
  | row :: rows =>
    (op.next store).outcome = .ok (some row) ∧ (op.next store).operator.Yields (op.next store).store rows ending

theorem Yields.congr {op' : Operator} {store' : Store} {rows : List Row} {ending : Except Failure Unit}
    (h : op'.Yields store' rows ending) (same : op.next store = op'.next store') : op.Yields store rows ending := by
  cases rows with
  | nil => exact (congrArg Run.outcome same).trans h
  | cons row rows =>
    unfold Yields at h ⊢
    rw [same]
    exact h

theorem Yields.unique {rows rows' : List Row} {ending ending' : Except Failure Unit} (h : op.Yields store rows ending)
    (h' : op.Yields store rows' ending') : rows = rows' ∧ ending = ending' := by
  induction rows generalizing op store rows' with
  | nil =>
    cases rows' with
    | nil =>
      have same := h.symm.trans h'
      refine ⟨rfl, ?_⟩
      cases ending <;> cases ending' <;> simp_all [Except.map]
    | cons row' rows' =>
      have same := h.symm.trans h'.1
      cases ending <;> cases same
  | cons row rows ih =>
    cases rows' with
    | nil =>
      have same := h'.symm.trans h.1
      cases ending' <;> cases same
    | cons row' rows' =>
      obtain rfl : row = row' := by
        have same := h.1.symm.trans h'.1
        cases same
        rfl
      obtain ⟨rfl, rfl⟩ := ih h.2 h'.2
      exact ⟨rfl, rfl⟩

theorem Buffers.yields_rest {parent : RowBuffer → Operator} (isBuffer : Buffers parent) {out : RowBuffer}
    (isOpen : out.isOpen = true) (store : Store) : (parent out).Yields store out.rest (.ok ()) := by
  generalize rest_eq : out.rest = rest
  induction rest generalizing out with
  | nil =>
    obtain ⟨out', next_eq, -⟩ := isBuffer.next_ok isOpen store
    unfold Yields
    rw [next_eq, rest_eq]
    rfl
  | cons row rest ih =>
    obtain ⟨out', next_eq, isOpen', -, rest_eq'⟩ := isBuffer.next_ok isOpen store
    rw [rest_eq] at next_eq rest_eq'
    unfold Yields
    rw [next_eq]
    exact ⟨rfl, ih isOpen' rest_eq'⟩

theorem Buffers.exists_yields {parent : RowBuffer → Operator} (isBuffer : Buffers parent) (out : RowBuffer)
    (store : Store) : ∃ rows ending, (parent out).Yields store rows ending := by
  cases isOpen : out.isOpen with
  | false =>
    refine ⟨[], .error (.refused .notOpen), ?_⟩
    unfold Yields next
    rw [isBuffer.call_eq, callBuffer, RowBuffer.next_shut isOpen]
    rfl
  | true => exact ⟨_, _, isBuffer.yields_rest isOpen store⟩

theorem exists_yields_scan (source : TableScan) (store : Store) :
    ∃ rows ending, (scan source).Yields store rows ending := by
  -- The scan turns a page only so often, and each page has only so many rows.
  generalize left_eq : source.cursor.pagesLeft = left
  induction left generalizing source store with
  | zero =>
    obtain ⟨left, left_eq'⟩ := source.cursor.exists_pagesLeft
    omega
  | succ left ih =>
    cases isOpen : source.cursor.isOpen with
    | false =>
      have taken : TableCursor.next (source.cursor, store) = .error (.refused .notOpen) (source.cursor, store) :=
        Action.bind_error (TableCursor.requireOpen_error isOpen store)
      refine ⟨[], .error (.refused .notOpen), ?_⟩
      unfold Yields
      rw [next_scan, taken]
      rfl
    | true =>
      generalize pending_eq : source.cursor.pending = pending
      induction pending generalizing source with
      | nil =>
        have taken : TableCursor.next (source.cursor, store) = _ := TableCursor.next_of_spent isOpen pending_eq
        cases paged : TableCursor.pageRows? source.cursor.pool source.cursor.file source.cursor.nextPage store with
        | error failure store' =>
          rw [paged] at taken
          refine ⟨[], .error failure, ?_⟩
          unfold Yields
          rw [next_scan, taken]
          rfl
        | ok rows? store' =>
          rw [paged] at taken
          cases rows? with
          | none =>
            refine ⟨[], .ok (), ?_⟩
            unfold Yields
            rw [next_scan, taken]
            rfl
          | some rows =>
            have left_eq' : (source.cursor.turned rows).pagesLeft = left := by
              have := TableCursor.pagesLeft_turned paged
              omega
            obtain ⟨given, ending, yields⟩ := ih { source with cursor := source.cursor.turned rows } store' left_eq'
            refine ⟨given, ending, yields.congr ?_⟩
            rw [next_scan, next_scan, taken]
            rfl
      | cons row rest ih_rows =>
        have taken : TableCursor.next (source.cursor, store) = _ := TableCursor.next_of_pending isOpen pending_eq
        have pending_eq' : (source.cursor.withRest rest).pending = rest := rfl
        obtain ⟨given, ending, yields⟩ :=
          ih_rows { source with cursor := source.cursor.withRest rest } left_eq isOpen pending_eq'
        refine ⟨source.present row :: given, ending, ?_⟩
        unfold Yields
        rw [next_scan, taken]
        exact ⟨rfl, yields⟩

theorem exists_yields (op : Operator) (store : Store) : ∃ rows ending, op.Yields store rows ending := by
  rcases op.scan_or_buffers with ⟨source, rfl⟩ | ⟨parent, out, isBuffer, rfl⟩
  · exact exists_yields_scan source store
  · exact isBuffer.exists_yields out store

/-- Steps that leave the store alone go as they go on the rows that are taken, and then the taking ends as it does. -/
theorem Yields.feed_check {rows : List Row} {ending : Except Failure Unit} (h : op.Yields store rows ending)
    (step : σ → Row → Except StoreError σ) (acc : σ) :
    Action.outcome (op.feed (fun acc row => Action.check (step acc row)) acc) store =
      (Failure.ofCheck (rows.foldlM step acc)).bind fun acc => ending.map fun _ => acc := by
  unfold Action.outcome
  induction rows generalizing op store acc with
  | nil =>
    have ends : (op.next store).outcome = ending.map fun _ => none := h
    rw [feed_eq_next, ends]
    cases ending <;> rfl
  | cons row rows ih =>
    obtain ⟨taken, yields⟩ := h
    rw [feed_eq_next, taken, List.foldlM_cons]
    dsimp only
    cases stepped : step acc row with
    | error e => rw [Action.bind_error (Action.check_apply_error rfl _)]; rfl
    | ok acc' =>
      rw [Action.bind_ok (Action.check_apply_ok rfl _)]
      exact ih yields acc'

end Operator

/-! ## Runs -/

namespace Run

variable {σ : Type} {run : Run Unit} {rows : List Row} {ending : Except Failure Unit}

/-- Opening an operator and taking rows one by one gives these, and then there are no more, or a call fails. No rows are
given where opening it fails. -/
def Yields (run : Run Unit) (rows : List Row) (ending : Except Failure Unit) : Prop :=
  match run.outcome with
  | .error failure => rows = [] ∧ ending = .error failure
  | .ok () => run.operator.Yields run.store rows ending

theorem exists_yields (run : Run Unit) : ∃ rows ending, run.Yields rows ending := by
  unfold Yields
  cases run.outcome with
  | error failure => exact ⟨[], _, rfl, rfl⟩
  | ok _ => exact run.operator.exists_yields run.store

theorem Yields.unique {rows' : List Row} {ending' : Except Failure Unit} (h : run.Yields rows ending)
    (h' : run.Yields rows' ending') : rows = rows' ∧ ending = ending' := by
  unfold Yields at h h'
  cases opened : run.outcome with
  | error failure =>
    rw [opened] at h h'
    exact ⟨h.1.trans h'.1.symm, h.2.trans h'.2.symm⟩
  | ok _ =>
    rw [opened] at h h'
    exact Operator.Yields.unique h h'

theorem Yields.feed_check (h : run.Yields rows ending) (step : σ → Row → Except StoreError σ) (acc : σ) :
    (run.feed (fun acc row => Action.check (step acc row)) acc).outcome =
      (Failure.ofCheck (rows.foldlM step acc)).bind fun acc => ending.map fun _ => acc := by
  unfold Yields at h
  unfold feed
  cases opened : run.outcome with
  | error failure =>
    rw [opened] at h
    obtain ⟨rfl, rfl⟩ := h
    rfl
  | ok _ =>
    rw [opened] at h
    rw [← h.feed_check step acc, Action.outcome]
    dsimp only
    cases run.operator.feed (fun acc row => Action.check (step acc row)) acc run.store <;> rfl

end Run

end RowStore
