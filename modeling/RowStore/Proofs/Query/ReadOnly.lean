import RowStore.Proofs.Pool.CleanReads
import RowStore.Proofs.Query.Reading

/-!
# Reading a query to its end

A query that only reads and is read over a filled pool gives what it means, whatever is in memory, and leaves the tables
as they are. A pool without changed pages has nothing written on the way.
-/

namespace RowStore

/-! ## Calls of a reader -/

/-- A look for another row, or the taking of the next one. -/
inductive ReadCall where
  | look
  | take

inductive ReadAnswer where
  | more (there : Bool)
  | given (row? : Option Row)
  deriving DecidableEq

namespace Operator

def perform (op : Operator) (store : Store) : ReadCall → Run ReadAnswer
  | .look => let run := op.hasNext store; ⟨run.outcome.map .more, run.operator, run.store⟩
  | .take => let run := op.next store; ⟨run.outcome.map .given, run.operator, run.store⟩

def play : List ReadCall → Operator → Store → List (Except Failure ReadAnswer) × Store
  | [], _, store => ([], store)
  | call :: calls, op, store =>
    let run := op.perform store call
    (play calls run.operator run.store).map (run.outcome :: ·) id

end Operator

/-- The answers on a list of rows. A look changes nothing. -/
def ReadAnswer.ofRows : List Row → List ReadCall → List ReadAnswer
  | _, [] => []
  | rows, .look :: calls => .more rows.head?.isSome :: ofRows rows calls
  | rows, .take :: calls => .given rows.head? :: ofRows rows.tail calls

/-! ## Buffers -/

namespace RowBuffer

variable {buffer : RowBuffer}

theorem hasNext_eq (isOpen : buffer.isOpen = true) : buffer.hasNext = .ok buffer.rest.head?.isSome := by
  unfold hasNext rest
  rw [if_pos isOpen, List.head?_drop]
  congr 1
  cases here : buffer.rows[buffer.position]? with
  | none => simpa using here
  | some row => simpa using (List.getElem?_eq_some_iff.mp here).1

theorem next_eq (isOpen : buffer.isOpen = true) :
    ∃ buffer', buffer.next = .ok (buffer.rest.head?, buffer') ∧ buffer'.isOpen = true ∧ buffer'.rows = buffer.rows ∧
      buffer'.rest = buffer.rest.tail := by
  cases rest_eq : buffer.rest with
  | nil => exact ⟨buffer, next_of_rest_nil isOpen rest_eq, isOpen, rfl, rest_eq⟩
  | cons row rows =>
    refine ⟨_, next_of_rest_cons isOpen rest_eq, isOpen, rfl, ?_⟩
    unfold rest at rest_eq ⊢
    rw [← List.drop_drop, rest_eq]
    rfl

end RowBuffer

namespace Operator

variable {pool : PoolId} {files : List TableFile} {contents : Contents} {inv : Store → Prop} {store store' : Store}
  {op : Operator} {rows : List Row} {α : Type}

theorem callScan_ok {source : TableScan} {action : CursorAction α} {a : α} {cursor' : TableCursor}
    (run : action (source.cursor, store) = .ok a (cursor', store')) :
    callScan source action store = ⟨.ok a, .scan { source with cursor := cursor' }, store'⟩ := by
  rw [callScan, run]

theorem callBuffer_ok {parent : RowBuffer → Operator} {out out' : RowBuffer}
    {action : RowBuffer → Except StoreError (α × RowBuffer)} {a : α} (run : action out = .ok (a, out')) :
    callBuffer parent out action store = ⟨.ok a, parent out', store⟩ := by
  rw [callBuffer, run]

/-- Operators of this form have their calls answered by their buffer. -/
inductive Buffers : (RowBuffer → Operator) → Prop where
  | values : Buffers .values
  | filter (predicate : Predicate) (child : Operator) : Buffers (.filter predicate child)
  | aggregate (aggregation : Aggregation) (child : Operator) : Buffers (.aggregate aggregation child)
  | insert (pool : PoolId) (txn : TxnId) (table : TableId) (done : Option Int32) (child : Operator) :
      Buffers (.insert pool txn table done child)
  | delete (pool : PoolId) (txn : TxnId) (done : Option Int32) (child : Operator) :
      Buffers (.delete pool txn done child)

theorem scan_or_buffers (op : Operator) :
    (∃ source, op = .scan source) ∨ ∃ parent out, Buffers parent ∧ op = parent out := by
  cases op with
  | scan source => exact .inl ⟨source, rfl⟩
  | values out => exact .inr ⟨_, out, .values, rfl⟩
  | filter predicate child out => exact .inr ⟨_, out, .filter predicate child, rfl⟩
  | aggregate aggregation child out => exact .inr ⟨_, out, .aggregate aggregation child, rfl⟩
  | insert pool txn table done child out => exact .inr ⟨_, out, .insert pool txn table done child, rfl⟩
  | delete pool txn done child out => exact .inr ⟨_, out, .delete pool txn done child, rfl⟩

namespace Buffers

variable {parent : RowBuffer → Operator} {out : RowBuffer}

theorem call_eq (h : Buffers parent) (onScan : TableScan → CursorAction α)
    (onBuffer : RowBuffer → Except StoreError (α × RowBuffer)) (out : RowBuffer) :
    (parent out).call onScan onBuffer = callBuffer parent out onBuffer := by
  cases h <;> rfl

theorem offers_iff (h : Buffers parent) :
    (parent out).Offers pool files contents rows ↔ out.isOpen = true ∧ rows = out.rest := by
  cases h <;> exact Iff.rfl

theorem hasNext_eq (h : Buffers parent) (isOpen : out.isOpen = true) (store : Store) :
    (parent out).hasNext store = ⟨.ok out.rest.head?.isSome, parent out, store⟩ := by
  have looked : out.hasNext.map (·, out) = .ok (out.rest.head?.isSome, out) := by
    rw [RowBuffer.hasNext_eq isOpen]
    rfl
  unfold Operator.hasNext
  rw [h.call_eq, callBuffer_ok looked]

theorem next_ok (h : Buffers parent) (isOpen : out.isOpen = true) (store : Store) :
    ∃ out', (parent out).next store = ⟨.ok out.rest.head?, parent out', store⟩ ∧ out'.isOpen = true ∧
      out'.rows = out.rows ∧ out'.rest = out.rest.tail := by
  obtain ⟨out', next_eq, kept⟩ := RowBuffer.next_eq isOpen
  unfold Operator.next
  rw [h.call_eq, callBuffer_ok next_eq]
  exact ⟨out', rfl, kept⟩

end Buffers

/-! ## What a call leaves -/

theorem Offers.reads {source : TableScan} (offers : (scan source).Offers pool files contents rows) {given : List Row}
    {cursor' : TableCursor} (reads : source.cursor.Reads (contents source.cursor.file.id) given cursor') :
    ∃ rest, (scan { source with cursor := cursor' }).Offers pool files contents rest ∧
      rows = given.map source.present ++ rest := by
  obtain ⟨pool_eq, mem, table_eq, isOpen, rfl⟩ := offers
  refine ⟨_, ⟨reads.pool_eq.trans pool_eq, ?_, ?_, reads.isOpen_eq.trans isOpen, rfl⟩, ?_⟩
  · exact reads.file_eq ▸ mem
  · exact table_eq.trans (congrArg TableFile.id reads.file_eq.symm)
  · rw [table_eq, reads.left_eq, List.map_append]
    rfl

theorem Offers.hasNext_ok (offers : op.Offers pool files contents rows)
    (serves : ∀ file ∈ files, file.Serves pool (contents file.id) inv) (here : inv store) :
    ∃ op' store', op.hasNext store = ⟨.ok rows.head?.isSome, op', store'⟩ ∧ op'.Offers pool files contents rows ∧
      inv store' := by
  rcases op.scan_or_buffers with ⟨source, rfl⟩ | ⟨parent, out, buffers, rfl⟩
  · have ⟨pool_eq, mem, table_eq, isOpen, rows_eq⟩ := offers
    obtain ⟨cursor', store', run, reads, here', -⟩ := (serves _ mem).hasNext_ok here pool_eq rfl isOpen
    obtain ⟨rest, offers', rest_eq⟩ := offers.reads reads
    rw [List.map_nil, List.nil_append] at rest_eq
    subst rest_eq
    have some_eq : rows.head?.isSome = (source.cursor.left (contents source.cursor.file.id)).head?.isSome := by
      rw [rows_eq, table_eq, List.head?_map, Option.isSome_map]
    rw [some_eq]
    exact ⟨_, store', callScan_ok run, offers', here'⟩
  · obtain ⟨isOpen, rfl⟩ := buffers.offers_iff.mp offers
    exact ⟨_, store, buffers.hasNext_eq isOpen store, offers, here⟩

theorem Offers.next_ok (offers : op.Offers pool files contents rows)
    (serves : ∀ file ∈ files, file.Serves pool (contents file.id) inv) (here : inv store) :
    ∃ op' store', op.next store = ⟨.ok rows.head?, op', store'⟩ ∧ op'.Offers pool files contents rows.tail ∧
      inv store' := by
  rcases op.scan_or_buffers with ⟨source, rfl⟩ | ⟨parent, out, buffers, rfl⟩
  · have ⟨pool_eq, mem, table_eq, isOpen, rows_eq⟩ := offers
    obtain ⟨cursor', store', run, reads, here', -⟩ := (serves _ mem).next_ok here pool_eq rfl isOpen
    obtain ⟨rest, offers', rest_eq⟩ := offers.reads reads
    have run' : (return (← TableCursor.next).map source.present : CursorAction (Option Row)) (source.cursor, store) =
        .ok _ (cursor', store') := Action.bind_ok run
    have head_eq : rows.head? = (source.cursor.left (contents source.cursor.file.id)).head?.map source.present := by
      rw [rows_eq, table_eq, List.head?_map]
    have tail_eq : rows.tail = rest := by
      cases given : (source.cursor.left (contents source.cursor.file.id)).head? with
      | none =>
        rw [given] at head_eq rest_eq
        rw [List.head?_eq_none_iff.mp head_eq] at rest_eq ⊢
        exact rest_eq
      | some row =>
        rw [rest_eq, given]
        rfl
    rw [head_eq, tail_eq]
    exact ⟨_, store', callScan_ok run', offers', here'⟩
  · obtain ⟨isOpen, rfl⟩ := buffers.offers_iff.mp offers
    obtain ⟨out', next_eq, isOpen', -, rest_eq⟩ := buffers.next_ok isOpen store
    exact ⟨_, store, next_eq, buffers.offers_iff.mpr ⟨isOpen', rest_eq.symm⟩, here⟩

theorem Offers.play_ok (offers : op.Offers pool files contents rows)
    (serves : ∀ file ∈ files, file.Serves pool (contents file.id) inv) (here : inv store) (calls : List ReadCall) :
    (op.play calls store).1 = (ReadAnswer.ofRows rows calls).map .ok ∧ inv (op.play calls store).2 := by
  induction calls generalizing op rows store with
  | nil => exact ⟨rfl, here⟩
  | cons call calls ih =>
    unfold play perform
    cases call with
    | look =>
      obtain ⟨op', store', run, offers', here'⟩ := offers.hasNext_ok serves here
      obtain ⟨played, kept⟩ := ih offers' here'
      simp only [run]
      refine ⟨?_, kept⟩
      rw [ReadAnswer.ofRows, List.map_cons, ← played]
      rfl
    | take =>
      obtain ⟨op', store', run, offers', here'⟩ := offers.next_ok serves here
      obtain ⟨played, kept⟩ := ih offers' here'
      simp only [run]
      refine ⟨?_, kept⟩
      rw [ReadAnswer.ofRows, List.map_cons, ← played]
      rfl

end Operator

/-! ## Filled pools -/

/-- The tables are as they were, as far as calls can tell. Where no page of the pool had been changed, nothing was
written. -/
structure PoolId.Undisturbed (pool : PoolId) (files : List TableFile) (contents : Contents) (before after : Store) :
    Prop where
  answers : pool.Answers files contents after
  unwritten : pool.Clean before → before.Unwritten after

theorem PoolId.Rests.undisturbed {pool : PoolId} {tables : Tables} {capacity : Nat} {current : Contents}
    {before store : Store} (h : pool.Rests tables capacity current before store) :
    pool.Undisturbed tables.files current before store :=
  ⟨h.1.answers, fun clean => (h.2 clean).2⟩

/-- A query that only reads is opened and read over a filled pool. Either it gives rows, and then every look and every
taking of a row is answered from them, in any order and number, or no rows are given, and then opening it fails. -/
theorem Operator.openAll_play {pool : PoolId} {files : List TableFile} {contents : Contents} {store : Store}
    (filled : pool.Filled files contents store) {op : Operator} (query : op.ReadsOnly pool store) {run : Run Unit}
    (run_eq : op.openAll store = run) (calls : List ReadCall) :
    (∃ rows after, op.Gives contents rows ∧ run.outcome = .ok () ∧
        run.operator.play calls run.store = ((ReadAnswer.ofRows rows calls).map .ok, after) ∧
        pool.Undisturbed files contents store after) ∨
      (∃ failure, run.outcome = .error failure) ∧ (∀ rows, ¬op.Gives contents rows) ∧
        pool.Undisturbed files contents store run.store := by
  subst run_eq
  obtain ⟨tables, capacity, rfl, rests⟩ := filled.rests
  have serves : ∀ file ∈ tables.files,
      file.Serves pool (contents file.id) (pool.Rests tables capacity contents store) :=
    fun file mem => PoolId.Rests.serves mem (filled.fit file mem).1
  obtain ⟨rests', ⟨rows, gives, opened, offers⟩ | ⟨failed, none⟩⟩ :=
    query.opens rests.1.lookUp_eq rests.1.sound serves rests
  · obtain ⟨answers_eq, rests''⟩ := offers.play_ok serves rests' calls
    exact .inl ⟨rows, _, gives, opened, Prod.ext answers_eq rfl, rests''.undisturbed⟩
  · exact .inr ⟨failed, none, rests'.undisturbed⟩

def smallSum : Row := ⟨⟨[⟨.int, some "sum(s.null)"⟩]⟩, [.int 5], none⟩

/-- The numbers above one are added up, in a table of three rows on two pages that is scanned below another name. -/
theorem Operator.openAll_play_of_sum :
    ∃ query after, ((smallScan (some "s")).filtered ⟨0, .gt, .constant (.int 1)⟩).aggregated 0 none .sum = .ok query ∧
      query.Gives PoolId.smallContents [smallSum] ∧ (query.openAll PoolId.smallStore).outcome = .ok () ∧
      (query.openAll PoolId.smallStore).operator.play [.look, .look, .take, .look, .take]
          (query.openAll PoolId.smallStore).store =
        ([.ok (.more true), .ok (.more true), .ok (.given (some smallSum)), .ok (.more false), .ok (.given none)],
          after) ∧
      PoolId.Undisturbed ⟨0⟩ [smallFile] PoolId.smallContents PoolId.smallStore after := by
  obtain ⟨query, query_eq, opened, played⟩ : ∃ query,
      ((smallScan (some "s")).filtered ⟨0, .gt, .constant (.int 1)⟩).aggregated 0 none .sum = .ok query ∧
      (query.openAll PoolId.smallStore).outcome = .ok () ∧
      ((query.openAll PoolId.smallStore).operator.play [.look, .look, .take, .look, .take]
          (query.openAll PoolId.smallStore).store).1 =
        [.ok (.more true), .ok (.more true), .ok (.given (some smallSum)), .ok (.more false), .ok (.given none)] :=
    ⟨_, rfl, by decide +kernel, by decide +kernel⟩
  have readsOnly : query.ReadsOnly ⟨0⟩ PoolId.smallStore :=
    ((readsOnly_smallScan (some "s")).filtered ⟨0, .gt, .constant (.int 1)⟩).aggregated query_eq
  rcases openAll_play PoolId.filled_small readsOnly rfl [.look, .look, .take, .look, .take] with
    ⟨rows, after, gives, -, play_eq, undisturbed⟩ | ⟨⟨failure, failed⟩, -⟩
  · rw [play_eq] at played
    have rows_eq : rows = [smallSum] := by
      match rows with
      | [] => simp [ReadAnswer.ofRows] at played
      | [row] => simpa [ReadAnswer.ofRows] using played
      | row :: other :: rest => simp [ReadAnswer.ofRows] at played
    exact ⟨query, after, query_eq, rows_eq ▸ gives, opened, play_eq.trans (Prod.ext played rfl), undisturbed⟩
  · cases failed.symm.trans opened

end RowStore
