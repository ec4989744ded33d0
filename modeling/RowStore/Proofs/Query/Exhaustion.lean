import RowStore.Proofs.Query.Sessions

/-!
# Operators that gave no more rows

An operator that gives its rows from a buffer has none left once it gave none. A scan looks for the end of its table at
each call. So it gives rows again where rows were stored on pages that came to the table after the scan was at its end,
and only there.
-/

namespace RowStore

/-! ## Calls among others -/

/-- A call of an operator, or a call of the pool by somebody else. -/
inductive QueryStep where
  | own (call : QueryCall)
  | other (call : PoolCall)

def QueryStep.others : List QueryStep → List PoolCall
  | [] => []
  | .own _ :: steps => others steps
  | .other call :: steps => call :: others steps

namespace Operator

/-- What steps leave of the operator and of the store. -/
def follow (pool : PoolId) : List QueryStep → Operator → Store → Operator × Store
  | [], op, store => (op, store)
  | .own call :: steps, op, store => follow pool steps (op.answer store call).operator (op.answer store call).store
  | .other call :: steps, op, store => follow pool steps op ((pool.perform call).after store)

/-- Until the operator is opened, rewound or closed, it is read without finding a row. -/
def Silent (pool : PoolId) : List QueryStep → Operator → Store → Prop
  | [], _, _ => True
  | .own (.read call) :: steps, op, store =>
    (op.perform store call).outcome = .ok (call.answerOf []) ∧
      Silent pool steps (op.perform store call).operator (op.perform store call).store
  | .own _ :: _, _, _ => True
  | .other call :: steps, op, store => Silent pool steps op ((pool.perform call).after store)

end Operator

/-- Until the scan of a table is opened, rewound or closed, there is no row, whenever it is read, on the pages that the
table did not have when it was read before; `n` pages were there at first. -/
def Contents.NoneAdded (files : List TableFile) (table : TableId) : List QueryStep → Nat → Contents → Prop
  | [], _, _ => True
  | .own (.read _) :: steps, n, contents =>
    PlainTable.rows ((contents table).drop n) = [] ∧ NoneAdded files table steps (contents table).length contents
  | .own _ :: _, _, _ => True
  | .other call :: steps, n, contents => NoneAdded files table steps n (contents.perform files call).1

namespace QueryStep

theorem others_append (steps steps' : List QueryStep) : others (steps ++ steps') = others steps ++ others steps' := by
  induction steps with
  | nil => rfl
  | cons step steps ih =>
    cases step with
    | own call => exact ih
    | other call => exact congrArg (call :: ·) ih

end QueryStep

theorem Contents.run_append (files : List TableFile) (contents : Contents) (calls calls' : List PoolCall) :
    (contents.run files (calls ++ calls')).2 = ((contents.run files calls).2.run files calls').2 := by
  induction calls generalizing contents with
  | nil => rfl
  | cons call calls ih => exact ih _

theorem ReadCall.answerOf_eq_iff (call : ReadCall) (rows : List Row) :
    call.answerOf rows = call.answerOf [] ↔ rows = [] := by
  cases call <;> cases rows <;> simp [answerOf]

/-! ## Buffers -/

namespace Operator

variable {pool : PoolId} {parent : RowBuffer → Operator} {out : RowBuffer}

theorem Buffers.silent (h : Buffers parent) (isOpen : out.isOpen = true) (rest_eq : out.rest = [])
    (steps : List QueryStep) (store : Store) : (parent out).Silent pool steps store := by
  induction steps generalizing out store with
  | nil => trivial
  | cons step steps ih =>
    cases step with
    | other call => exact ih isOpen rest_eq _
    | own call =>
      cases call with
      | openAll | rewind | closeAll => trivial
      | read call =>
        obtain ⟨out', run, isOpen', -, rest_eq'⟩ := h.perform_open isOpen store call
        rw [rest_eq] at run rest_eq'
        unfold Silent
        rw [run]
        refine ⟨rfl, ih isOpen' (rest_eq'.trans ?_) store⟩
        cases call <;> rfl

theorem Buffers.silent_of_none (h : Buffers parent) {store : Store} {run : Run ReadAnswer}
    (run_eq : (parent out).perform store .take = run) (last : run.outcome = .ok (.given none))
    (steps : List QueryStep) : run.operator.Silent pool steps run.store := by
  subst run_eq
  cases isOpen : out.isOpen with
  | false =>
    rw [h.perform_shut isOpen] at last
    cases last
  | true =>
    obtain ⟨out', run, isOpen', -, rest_eq⟩ := h.perform_open isOpen store .take
    rw [run] at last ⊢
    have none : out.rest.head? = none := ReadAnswer.given.inj (Except.ok.inj last)
    rw [List.head?_eq_none_iff.mp none] at rest_eq
    exact h.silent isOpen' rest_eq steps store

theorem isScan_follow (op : Operator) (steps : List QueryStep) (store : Store) :
    (op.follow pool steps store).1.isScan = op.isScan := by
  induction steps generalizing op store with
  | nil => rfl
  | cons step steps ih =>
    cases step with
    | own call => exact (ih _ _).trans (op.isScan_answer store call)
    | other call => exact ih _ _

end Operator

/-! ## A scan at its end -/

namespace Operator

variable {pool : PoolId} {tables : Tables} {capacity : Nat} {contents : Contents} {inv : Store → Prop} {store : Store}
  {source : TableScan} {table : PlainTable} {n : Nat} {steps : List QueryStep}

theorem perform_scan_ok (serves : source.cursor.file.Serves pool table inv) (here : inv store)
    (pool_eq : source.cursor.pool = pool) (isOpen : source.cursor.isOpen = true) (call : ReadCall) :
    ∃ given cursor' store', (scan source).perform store call =
        ⟨.ok (call.answerOf ((source.cursor.left table).map source.present)),
          .scan { source with cursor := cursor' }, store'⟩ ∧
      TableCursor.Reads table given source.cursor cursor' ∧ inv store' ∧
      (source.cursor.left table = [] → table.length ≤ cursor'.nextPage.toNat) := by
  unfold perform Operator.hasNext Operator.next Operator.call
  cases call with
  | look =>
    obtain ⟨cursor', store', run, reads, rest⟩ := serves.hasNext_ok here pool_eq rfl isOpen
    refine ⟨_, cursor', store', ?_, reads, rest⟩
    dsimp only
    rw [callScan_ok run]
    simp [ReadCall.answerOf, Except.map]
  | take =>
    obtain ⟨cursor', store', run, reads, rest⟩ := serves.next_ok here pool_eq rfl isOpen
    refine ⟨_, cursor', store', ?_, reads, rest⟩
    have run' : (return (← TableCursor.next).map source.present : CursorAction (Option Row)) (source.cursor, store) =
        .ok _ (cursor', store') := Action.bind_ok run
    dsimp only
    rw [callScan_ok run']
    simp [ReadCall.answerOf, Except.map]

/-- The scan reads a file of the pool, and stands before a page of its table or behind the last. -/
structure Tracks (pool : PoolId) (files : List TableFile) (contents : Contents) (source : TableScan) : Prop where
  pool_eq : source.cursor.pool = pool
  mem : source.cursor.file ∈ files
  table_eq : source.table = source.cursor.file.id
  within : source.cursor.nextPage.toNat ≤ (contents source.table).length

/-- The scan is open, has no row left of the pages before `n`, and stands before that page. -/
structure WaitsAt (n : Nat) (source : TableScan) : Prop where
  isOpen : source.cursor.isOpen = true
  pending_eq : source.cursor.pending = []
  number_eq : source.cursor.nextPage.toNat = n

theorem WaitsAt.left_eq (h : WaitsAt n source) (table : PlainTable) :
    source.cursor.left table = PlainTable.rows (table.drop n) := by
  rw [TableCursor.left, h.pending_eq, h.number_eq]
  rfl

namespace Tracks

theorem perform_ok (h : Tracks pool tables.files contents source) (shows : pool.Shows tables capacity contents store)
    (room : ∀ file ∈ tables.files, (contents file.id).length < UInt32.size) (isOpen : source.cursor.isOpen = true)
    (call : ReadCall) :
    ∃ cursor' store', (scan source).perform store call =
        ⟨.ok (call.answerOf ((source.cursor.left (contents source.table)).map source.present)),
          .scan { source with cursor := cursor' }, store'⟩ ∧ pool.Shows tables capacity contents store' ∧
      Tracks pool tables.files contents { source with cursor := cursor' } ∧
      (source.cursor.left (contents source.table) = [] →
        WaitsAt (contents source.table).length { source with cursor := cursor' }) := by
  have serves : source.cursor.file.Serves pool (contents source.cursor.file.id) (pool.Shows tables capacity contents) :=
    PoolId.Shows.serves h.mem (room _ h.mem)
  obtain ⟨given, cursor', store', run, reads, shows', ended⟩ := perform_scan_ok serves shows h.pool_eq isOpen call
  rw [← h.table_eq] at run reads ended
  have within : cursor'.nextPage.toNat ≤ (contents source.table).length := by
    rcases reads.within with same | within
    · rw [same]
      exact h.within
    · exact within
  refine ⟨cursor', store', run, shows', ⟨reads.pool_eq.trans h.pool_eq, reads.file_eq ▸ h.mem, ?_, within⟩, ?_⟩
  · exact h.table_eq.trans (congrArg TableFile.id reads.file_eq.symm)
  · intro none
    have left_eq := reads.left_eq
    rw [none] at left_eq
    obtain ⟨-, left_eq⟩ := List.append_eq_nil_iff.mp left_eq.symm
    exact ⟨reads.isOpen_eq.trans isOpen, (List.append_eq_nil_iff.mp left_eq).1, Nat.le_antisymm within (ended none)⟩

theorem answer_ok (h : Tracks pool tables.files contents source) (shows : pool.Shows tables capacity contents store)
    (room : ∀ file ∈ tables.files, (contents file.id).length < UInt32.size) (call : QueryCall) :
    ∃ cursor', ((scan source).answer store call).operator = .scan { source with cursor := cursor' } ∧
      Tracks pool tables.files contents { source with cursor := cursor' } ∧
      pool.Shows tables capacity contents ((scan source).answer store call).store := by
  cases call with
  | openAll | rewind => exact ⟨_, rfl, ⟨h.pool_eq, h.mem, h.table_eq, Nat.zero_le _⟩, shows⟩
  | closeAll => exact ⟨_, rfl, ⟨h.pool_eq, h.mem, h.table_eq, h.within⟩, shows⟩
  | read call =>
    unfold answer
    cases isOpen : source.cursor.isOpen with
    | false =>
      dsimp only
      rw [perform_scan_shut isOpen]
      exact ⟨source.cursor, rfl, h, shows⟩
    | true =>
      obtain ⟨cursor', store', run, shows', tracks, -⟩ := h.perform_ok shows room isOpen call
      dsimp only
      rw [run]
      exact ⟨_, rfl, tracks, shows'⟩

theorem mono (h : Tracks pool tables.files contents source) {contents' : Contents}
    (le : (contents source.table).length ≤ (contents' source.table).length) :
    Tracks pool tables.files contents' source := ⟨h.pool_eq, h.mem, h.table_eq, Nat.le_trans h.within le⟩

theorem follow_ok (h : Tracks pool tables.files contents source) (shows : pool.Shows tables capacity contents store)
    (made : ∀ call ∈ QueryStep.others steps, call.Made)
    (fit : (contents.run tables.files (QueryStep.others steps)).2.Fit tables.files) :
    ∃ source', ((scan source).follow pool steps store).1 = .scan source' ∧ source'.table = source.table ∧
      Tracks pool tables.files (contents.run tables.files (QueryStep.others steps)).2 source' ∧
      pool.Shows tables capacity (contents.run tables.files (QueryStep.others steps)).2
        ((scan source).follow pool steps store).2 := by
  induction steps generalizing source contents store with
  | nil => exact ⟨source, rfl, rfl, h, shows⟩
  | cons step steps ih =>
    have room : ∀ file ∈ tables.files, (contents file.id).length < UInt32.size :=
      fun file mem => (Contents.Fit.of_run fit file mem).1
    cases step with
    | own call =>
      obtain ⟨cursor₁, op_eq, tracks, shows₁⟩ := h.answer_ok shows room call
      obtain ⟨source', op_eq', table_eq, rest⟩ := ih tracks shows₁ made fit
      rw [← op_eq] at op_eq' rest
      exact ⟨source', op_eq', table_eq, rest⟩
    | other call =>
      have fit₁ : (contents.perform tables.files call).1.Fit tables.files := Contents.Fit.of_run fit
      obtain ⟨store₁, ends, shows₁⟩ := shows.perform_ok (made call List.mem_cons_self) room fit₁.fits
      rw [← ends.eq.2] at shows₁
      have le := Contents.length_perform_le tables.files contents call source.table
      exact ih (h.mono le) shows₁ (fun other mem => made other (List.mem_cons_of_mem _ mem)) fit

theorem silent_iff (h : Tracks pool tables.files contents source) (waits : WaitsAt n source)
    (shows : pool.Shows tables capacity contents store) (made : ∀ call ∈ QueryStep.others steps, call.Made)
    (fit : (contents.run tables.files (QueryStep.others steps)).2.Fit tables.files) :
    (scan source).Silent pool steps store ↔ contents.NoneAdded tables.files source.table steps n := by
  induction steps generalizing source contents store n with
  | nil => exact Iff.rfl
  | cons step steps ih =>
    have room : ∀ file ∈ tables.files, (contents file.id).length < UInt32.size :=
      fun file mem => (Contents.Fit.of_run fit file mem).1
    cases step with
    | own call =>
      cases call with
      | openAll | rewind | closeAll => exact Iff.rfl
      | read call =>
        obtain ⟨cursor', store', run, shows', tracks, ended⟩ := h.perform_ok shows room waits.isOpen call
        rw [waits.left_eq] at run ended
        unfold Silent Contents.NoneAdded
        rw [run, Except.ok.injEq, ReadCall.answerOf_eq_iff, List.map_eq_nil_iff]
        exact and_congr_right fun none => ih tracks (ended none) shows' made fit
    | other call =>
      have fit₁ : (contents.perform tables.files call).1.Fit tables.files := Contents.Fit.of_run fit
      obtain ⟨store₁, ends, shows₁⟩ := shows.perform_ok (made call List.mem_cons_self) room fit₁.fits
      rw [← ends.eq.2] at shows₁
      have le := Contents.length_perform_le tables.files contents call source.table
      exact ih (h.mono le) waits shows₁ (fun other mem => made other (List.mem_cons_of_mem _ mem)) fit

theorem silent_of_none (h : Tracks pool tables.files contents source)
    (shows : pool.Shows tables capacity contents store) {run : Run ReadAnswer}
    (run_eq : (scan source).perform store .take = run) (last : run.outcome = .ok (.given none))
    (made : ∀ call ∈ QueryStep.others steps, call.Made)
    (fit : (contents.run tables.files (QueryStep.others steps)).2.Fit tables.files) :
    run.operator.Silent pool steps run.store ↔
      contents.NoneAdded tables.files source.table steps (contents source.table).length := by
  subst run_eq
  cases isOpen : source.cursor.isOpen with
  | false =>
    rw [perform_scan_shut isOpen] at last
    cases last
  | true =>
    obtain ⟨cursor', store', run, shows', tracks, ended⟩ :=
      h.perform_ok shows (fun file mem => (Contents.Fit.of_run fit file mem).1) isOpen .take
    rw [run] at last ⊢
    have none := (ReadCall.answerOf_eq_iff .take _).mp (Except.ok.inj last)
    exact tracks.silent_iff (ended (List.map_eq_nil_iff.mp none)) shows' made fit

end Tracks

theorem tracks_ofTable {table : TableId} {qualifier : Option String} {op : Operator}
    (shows : pool.Shows tables capacity contents store) (planned : ofTable pool table qualifier store = .ok op store) :
    ∃ source, op = .scan source ∧ source.table = table ∧ Tracks pool tables.files contents source := by
  obtain ⟨source, middle, plan_eq, op_eq⟩ := Action.of_bind_ok planned
  cases op_eq
  obtain ⟨file, name, found, rfl⟩ := TableScan.of_plan plan_eq
  obtain ⟨mem, rfl⟩ := TableFile.mem_of_among ((shows.lookUp_eq table).symm.trans found)
  exact ⟨_, rfl, rfl, ⟨rfl, mem, rfl, Nat.zero_le _⟩⟩

/-- An operator gave no row after any steps. If it is not a scan, it gives none until it is opened, rewound or closed,
whatever it reads and whatever others do. A scan of a table does so just as long as no row is put on a page that the
table did not have when the scan was read before. There the files must be able to take the pages of the tables. -/
theorem silent_after_none {op : Operator} {before later : List QueryStep} {reached : Operator × Store}
    (reached_eq : op.follow pool before store = reached) {run : Run ReadAnswer}
    (run_eq : reached.1.perform reached.2 .take = run) (last : run.outcome = .ok (.given none)) :
    (op.isScan = false → run.operator.Silent pool later run.store) ∧
      ∀ {files : List TableFile} {contents now : Contents} {table : TableId} {qualifier : Option String},
        pool.Filled files contents store → ofTable pool table qualifier store = .ok op store →
        (∀ call ∈ QueryStep.others (before ++ later), call.Made) →
        (contents.run files (QueryStep.others (before ++ later))).2.Fit files →
        (contents.run files (QueryStep.others before)).2 = now →
        (run.operator.Silent pool later run.store ↔ now.NoneAdded files table later (now table).length) := by
  subst reached_eq
  constructor
  · intro other
    rcases (op.follow pool before store).1.scan_or_buffers with ⟨source, scan_eq⟩ | ⟨parent, out, h, op_eq⟩
    · have scan : (op.follow pool before store).1.isScan = op.isScan := op.isScan_follow before store
      rw [scan_eq, other] at scan
      cases scan
    · rw [op_eq] at run_eq
      exact h.silent_of_none run_eq last later
  · rintro files contents now table qualifier filled planned made fit rfl
    obtain ⟨tables, capacity, rfl, shows⟩ := filled.shows
    obtain ⟨source, rfl, rfl, tracks⟩ := tracks_ofTable shows planned
    rw [QueryStep.others_append, Contents.run_append] at fit
    rw [QueryStep.others_append, List.forall_mem_append] at made
    obtain ⟨source', op_eq, table_eq, tracks', shows'⟩ := tracks.follow_ok shows made.1 (Contents.Fit.of_run fit)
    rw [op_eq] at run_eq
    rw [← table_eq]
    exact tracks'.silent_of_none shows' run_eq last made.2 fit

def smallStep (n : Int32) : QueryStep := .other (.insert ⟨1⟩ smallFile.id (smallRow n none))

/-- The first row that is stored after the end of a scan takes an empty slot of the last page, and the scan stays
silent. The second needs a page of its own, and the scan gives it. A filter stays silent. -/
theorem silent_after_none_of_storing :
    ∃ scanned filtered : Operator × Store,
      (smallScan none).follow ⟨0⟩ [.own .openAll, .own (.read .take), .own (.read .take), .own (.read .take)]
        PoolId.smallStore = scanned ∧
      ((smallScan none).filtered ⟨0, .gt, .constant (.int 2)⟩).follow ⟨0⟩ [.own .openAll, .own (.read .take)]
        PoolId.smallStore = filtered ∧
      Silent ⟨0⟩ [smallStep 4, .own (.read .look)] (scanned.1.perform scanned.2 .take).operator
        (scanned.1.perform scanned.2 .take).store ∧
      ¬Silent ⟨0⟩ [smallStep 4, smallStep 5, .own (.read .look)] (scanned.1.perform scanned.2 .take).operator
        (scanned.1.perform scanned.2 .take).store ∧
      Silent ⟨0⟩ [smallStep 4, smallStep 5, .own (.read .look)] (filtered.1.perform filtered.2 .take).operator
        (filtered.1.perform filtered.2 .take).store := by
  have found : PoolId.smallStore.catalog.file smallFile.id = .ok smallFile := by decide +kernel
  have named : PoolId.smallStore.catalog.tableName smallFile.id = .ok "t" := by decide +kernel
  have planned : ofTable ⟨0⟩ smallFile.id none PoolId.smallStore = .ok (smallScan none) PoolId.smallStore :=
    Action.bind_ok (TableScan.plan_ok found named ⟨0⟩ none)
  refine ⟨_, _, rfl, rfl, ?quiet, ?loud, ?filtered⟩
  case quiet =>
    refine ((silent_after_none rfl rfl (by decide +kernel)).2 PoolId.filled_small planned ?made ?fit rfl).mpr ?none
    case made => simp [QueryStep.others, smallStep, PoolCall.Made, made_smallRow]
    case fit =>
      intro file mem
      cases List.mem_singleton.mp mem
      exact ⟨by decide +kernel, by decide +kernel⟩
    case none => exact ⟨by decide +kernel, trivial⟩
  case loud =>
    refine fun silent => absurd
      (((silent_after_none rfl rfl (by decide +kernel)).2 PoolId.filled_small planned ?made ?fit rfl).mp silent) ?some
    case made => simp [QueryStep.others, smallStep, PoolCall.Made, made_smallRow]
    case fit =>
      intro file mem
      cases List.mem_singleton.mp mem
      exact ⟨by decide +kernel, by decide +kernel⟩
    case some => exact fun none => absurd none.1 (by decide +kernel)
  case filtered => exact (silent_after_none rfl rfl (by decide +kernel)).1 rfl

end Operator

end RowStore
