import RowStore.Proofs.Query.Inserting
import RowStore.Proofs.Query.Sessions

/-!
# Insertions that are tried again

An insertion remembers that it was carried out only when all rows are stored. One that failed on the way starts again
from the first row when it is opened again, and stores the rows before the one that failed once more.
-/

namespace RowStore

/-! ## Attempts -/

/-- The outcomes of the openings among some calls, up to the first that succeeded. -/
def QueryCall.attempts : List QueryCall → List (Except Failure QueryAnswer) → List (Except Failure QueryAnswer)
  | .openAll :: _, .ok answer :: _ => [.ok answer]
  | .openAll :: calls, .error failure :: outcomes => .error failure :: attempts calls outcomes
  | _ :: calls, _ :: outcomes => attempts calls outcomes
  | _, _ => []

/-- What an attempt to store rows in a table of a schema has stored, by its outcome: all rows, or those before one that
was refused, or one row more than can be counted. -/
inductive Attempt (schema : Schema) (rows : List Row) : Except Failure QueryAnswer → List Row → Prop where
  | complete : Attempt schema rows (.ok .done) rows
  | refused {given rest : List Row} {row : Row} {failure : Failure} (rows_eq : given ++ row :: rest = rows)
      (reason : failure = .refused .fileSystem ∨
        row.schema ≠ schema ∧ failure = .refused (Schema.mismatch schema row.schema)) :
      Attempt schema rows (.error failure) given
  | uncounted {given rest : List Row} (rows_eq : given ++ rest = rows)
      (full : Int32.maxValue.toInt + 1 = given.length) : Attempt schema rows (.error (.aborted .wordOverflow)) given

variable {pool : PoolId} {tables : Tables} {capacity : Nat} {contents : Contents} {store : Store} {file : TableFile}
  {rows : List Row} {txn : TxnId}

theorem Contents.insert_refused (mem : file ∈ tables.files) {row : Row} {failure : Failure}
    (refused : (contents.insert tables.files file.id row).2 = .error failure) :
    row.schema ≠ file.schema ∧ failure = .refused (Schema.mismatch file.schema row.schema) := by
  unfold Contents.insert at refused
  rw [tables.among_eq mem] at refused
  dsimp only at refused
  split at refused
  · next other =>
    cases refused
    exact ⟨other, rfl⟩
  · cases refused

namespace Operator

/-! ## One attempt -/

/-- The rows `given` were stored and counted. -/
def Stored (pool : PoolId) (tables : Tables) (capacity : Nat) (contents : Contents) (file : TableFile)
    (given : List Row) (n : Int32) (store : Store) : Prop :=
  n.toInt = given.length ∧ (store.HasRoom tables.files →
    pool.Shows tables capacity (contents.insertAll tables.files file.id given) store)

theorem attempt_leads (mem : file ∈ tables.files) (made : ∀ row ∈ rows, row.Made)
    (shows : store.HasRoom tables.files → pool.Shows tables capacity contents store) (txn : TxnId) :
    Leads
      (fun _ after => store.Extends after ∧ (after.HasRoom tables.files →
        pool.Shows tables capacity (contents.insertAll tables.files file.id rows) after))
      (fun failure after => store.Extends after ∧ (after.HasRoom tables.files →
        ∃ given, Attempt file.schema rows (.error failure) given ∧
          pool.Shows tables capacity (contents.insertAll tables.files file.id given) after))
      (rows.foldlM (Operator.store pool txn file.id) 0 store) := by
  -- The rows that were stored and those to come are all rows.
  let At (rest : List Row) (n : Int32) (after : Store) : Prop :=
    store.Extends after ∧ ∃ given, given ++ rest = rows ∧ Stored pool tables capacity contents file given n after
  let failed (failure : Failure) (after : Store) : Prop :=
    store.Extends after ∧ (after.HasRoom tables.files →
      ∃ given, Attempt file.schema rows (.error failure) given ∧
        pool.Shows tables capacity (contents.insertAll tables.files file.id given) after)
  have stepped : ∀ {row rest n before}, At (row :: rest) n before →
      Leads (At rest) failed (Operator.store pool txn file.id n row before) := by
    rintro row rest n before ⟨extended, given, sum_eq, count_eq, here⟩
    have row_made : row.Made := made row (sum_eq ▸ List.mem_append_right _ List.mem_cons_self)
    have inserted := PoolId.insert_leads (fun room => ⟨here room, row_made⟩) txn file.id
    unfold Operator.store
    cases run : pool.insert txn file.id row before with
    | error failure after =>
      rw [run] at inserted
      rw [Action.bind_error (Action.discard_error run)]
      refine ⟨extended.trans inserted.1, fun room => ?_⟩
      obtain ⟨shows', reason⟩ := inserted.2 room
      exact ⟨given, .refused sum_eq (reason.imp_right (Contents.insert_refused mem)), shows'⟩
    | ok stored after =>
      rw [run] at inserted
      rw [Action.bind_ok (Action.discard_ok run)]
      have sum_eq' : (given ++ [row]) ++ rest = rows := by rw [List.append_assoc]; exact sum_eq
      have shows' : after.HasRoom tables.files →
          pool.Shows tables capacity (contents.insertAll tables.files file.id (given ++ [row])) after := by
        rw [Contents.insertAll_append]
        exact inserted.2
      refine (countOn_leads n after).mono ?counted ?full
      case counted =>
        rintro n' _ ⟨rfl, next_eq⟩
        refine ⟨extended.trans inserted.1, given ++ [row], sum_eq', ?_, shows'⟩
        rw [next_eq, count_eq, List.length_append]
        rfl
      case full =>
        rintro failure _ ⟨rfl, rfl, rfl⟩
        refine ⟨extended.trans inserted.1, fun room => ⟨given ++ [row], .uncounted sum_eq' ?_, shows' room⟩⟩
        rw [count_eq, List.length_append]
        rfl
  have start : At rows 0 store := ⟨.refl store, [], rfl, rfl, shows⟩
  refine (foldlM_leads stepped start).mono ?_ fun _ _ ended => ended
  rintro n after ⟨extended, given, sum_eq, -, here⟩
  rw [List.append_nil] at sum_eq
  exact ⟨extended, sum_eq ▸ here⟩

/-! ## Sessions -/

theorem answer_insert_quiet (pool : PoolId) (txn : TxnId) (table : TableId) (done : Option Int32) (child : Operator)
    (out : RowBuffer) {call : QueryCall} (quiet : done = none → call ≠ .openAll) (store : Store) :
    (∃ child' out', ((insert pool txn table done child out).answer store call).operator =
        .insert pool txn table done child' out' ∧ (child' = child ∨ child' = child.closeAll)) ∧
      ((insert pool txn table done child out).answer store call).store = store := by
  by_cases opening : call = .openAll
  · subst opening
    cases done with
    | none => exact absurd rfl (quiet rfl)
    | some n => exact ⟨⟨child, _, rfl, .inl rfl⟩, rfl⟩
  · by_cases closing : call = .closeAll
    · subst closing
      exact ⟨⟨_, _, rfl, .inr rfl⟩, rfl⟩
    · have buffers := Buffers.insert pool txn table done child
      obtain ⟨out', op_eq, -, store_eq⟩ := buffers.answer_keeps opening closing out store
      exact ⟨⟨child, out', op_eq, .inl rfl⟩, store_eq⟩

theorem session_insert_done {table : TableId} {n : Int32} (calls : List QueryCall) (child : Operator) (out : RowBuffer)
    (store : Store) : ((insert pool txn table (some n) child out).session calls store).store = store := by
  induction calls generalizing child out with
  | nil => rfl
  | cons call calls ih =>
    have notYet : some n = none → call ≠ .openAll := nofun
    obtain ⟨⟨child', out', op_eq, -⟩, store_eq⟩ := answer_insert_quiet pool txn table (some n) child out notYet store
    unfold session
    dsimp only
    rw [op_eq, store_eq]
    exact ih child' out'

theorem answer_insert_values (pool : PoolId) (txn : TxnId) (table : TableId) (inner out : RowBuffer) (store : Store) :
    (insert pool txn table none (.values inner) out).answer store .openAll =
      match inner.rows.foldlM (Operator.store pool txn table) 0 store with
      | .ok n after =>
        ⟨.ok .done, .insert pool txn table (some n) (.values inner.opened)
          (RowBuffer.ofRows countSchema [countRow n]).opened, after⟩
      | .error failure after => ⟨.error failure, .insert pool txn table none (.values inner.opened) out, after⟩ := by
  have fed : ((values inner).openAll store).feed (Operator.store pool txn table) 0 =
      match inner.rows.foldlM (Operator.store pool txn table) 0 store with
      | .ok n after => ⟨.ok n, .values inner.opened, after⟩
      | .error failure after => ⟨.error failure, .values inner.opened, after⟩ := by
    have given : (values inner.opened).feed (Operator.store pool txn table) 0 =
        inner.rows.foldlM (Operator.store pool txn table) 0 := by
      unfold feed
      exact if_pos rfl
    unfold Run.feed openAll
    dsimp only
    rw [given]
    cases inner.rows.foldlM (Operator.store pool txn table) 0 store <;> rfl
  unfold answer openAll
  dsimp only
  rw [fed]
  cases inner.rows.foldlM (Operator.store pool txn table) 0 store <;> rfl

theorem session_insert_leads (mem : file ∈ tables.files) (made : ∀ row ∈ rows, row.Made) (calls : List QueryCall)
    {inner : RowBuffer} (rows_eq : inner.rows = rows) (out : RowBuffer)
    (shows : store.HasRoom tables.files → pool.Shows tables capacity contents store) {session : Session}
    (session_eq : (insert pool txn file.id none (.values inner) out).session calls store = session) :
    store.Extends session.store ∧ (session.store.HasRoom tables.files →
      ∃ tries, List.Forall₂ (Attempt file.schema rows) (QueryCall.attempts calls session.outcomes) tries ∧
        pool.Shows tables capacity (contents.insertAll tables.files file.id tries.flatten) session.store) := by
  subst session_eq
  induction calls generalizing inner out contents store with
  | nil => exact ⟨.refl store, fun room => ⟨[], .nil, shows room⟩⟩
  | cons call calls ih =>
    unfold session
    by_cases opening : call = .openAll
    case neg =>
      obtain ⟨⟨child, out', op_eq, child_eq⟩, store_eq⟩ :=
        answer_insert_quiet pool txn file.id none (.values inner) out (fun _ => opening) store
      obtain ⟨inner', rfl, rows_eq'⟩ : ∃ inner', child = .values inner' ∧ inner'.rows = rows := by
        rcases child_eq with rfl | rfl
        · exact ⟨inner, rfl, rows_eq⟩
        · exact ⟨inner.closed, rfl, rows_eq⟩
      dsimp only
      rw [op_eq, store_eq]
      have skipped : ∀ outcome outcomes,
          QueryCall.attempts (call :: calls) (outcome :: outcomes) = QueryCall.attempts calls outcomes := by
        intro outcome outcomes
        cases call with
        | openAll => exact absurd rfl opening
        | rewind | closeAll | read => rfl
      rw [skipped]
      exact ih rows_eq' out' shows
    case pos =>
      subst opening
      have tried := attempt_leads mem made shows txn
      rw [← rows_eq] at tried
      cases stored : inner.rows.foldlM (Operator.store pool txn file.id) 0 store with
      | ok n after =>
        rw [stored] at tried
        dsimp only
        rw [answer_insert_values, stored]
        dsimp only
        rw [session_insert_done]
        refine ⟨tried.1, fun room => ⟨[rows], .cons .complete .nil, ?_⟩⟩
        rw [List.flatten_singleton, ← rows_eq]
        exact tried.2 room
      | error failure after =>
        rw [stored] at tried
        obtain ⟨extended, leads⟩ := tried
        dsimp only
        rw [answer_insert_values, stored]
        dsimp only
        by_cases room : after.HasRoom tables.files
        · obtain ⟨given, attempt, shows'⟩ := leads room
          have rows_eq' : inner.opened.rows = rows := rows_eq
          obtain ⟨extended', rest⟩ := ih rows_eq' out fun _ => shows'
          refine ⟨extended.trans extended', fun room' => ?_⟩
          obtain ⟨tries, all, shows''⟩ := rest room'
          refine ⟨given :: tries, .cons (rows_eq ▸ attempt) all, ?_⟩
          rw [List.flatten_cons, Contents.insertAll_append]
          exact shows''
        · have rows_eq' : inner.opened.rows = rows := rows_eq
          have shows' : after.HasRoom tables.files → pool.Shows tables capacity contents after :=
            fun room' => absurd room' room
          obtain ⟨extended', -⟩ := ih rows_eq' out shows'
          exact ⟨extended.trans extended', fun room' => absurd (extended'.hasRoom room') room⟩

/-- An insertion of listed rows is opened, rewound, closed and read in any order. The table has what was stored by each
of the openings up to the first that succeeded, one after another: all rows if it succeeded, and otherwise those before
the one that it failed on. Nothing else stores anything. The files must be able to number the pages that they have in
the end. -/
theorem session_insertedInto {files : List TableFile} {schema : Schema} {target : TableId} {insertion : Operator}
    {store' : Store} (filled : pool.Filled files contents store) (made : ∀ row ∈ rows, row.Made)
    (planned : (ofRows schema rows).insertedInto pool txn target store = .ok insertion store') {calls : List QueryCall}
    {session : Session} (session_eq : insertion.session calls store = session) (room : session.store.HasRoom files) :
    ∃ tries, List.Forall₂ (Attempt schema rows) (QueryCall.attempts calls session.outcomes) tries ∧
      pool.Answers files (contents.insertAll files target tries.flatten) session.store := by
  obtain ⟨tables, capacity, rfl, shows⟩ := filled.shows
  obtain ⟨rfl, file, found, schema_eq⟩ := of_insertedInto planned
  obtain ⟨mem, rfl⟩ := TableFile.mem_of_among ((shows.lookUp_eq target).symm.trans found)
  obtain ⟨-, leads⟩ := session_insert_leads mem made calls rfl _ (fun _ => shows) session_eq
  obtain ⟨tries, attempts, shows'⟩ := leads room
  have schema_eq' : file.schema = schema := schema_eq
  exact ⟨tries, schema_eq' ▸ attempts, shows'.answers⟩

def misfitRow : Row := ⟨⟨[⟨.string, none⟩]⟩, [.string "x"], none⟩

/-- The second of two rows does not fit the table. The first is stored by each opening. -/
theorem session_insertedInto_of_retrying :
    ∃ (insertion : Operator) (session : Session),
      (ofRows smallFile.schema [smallRow 4 none, misfitRow]).insertedInto ⟨0⟩ ⟨1⟩ smallFile.id PoolId.smallStore =
        .ok insertion PoolId.smallStore ∧
      insertion.session [.openAll, .rewind, .openAll] PoolId.smallStore = session ∧
      PoolId.Answers ⟨0⟩ [smallFile] (PoolId.smallContents.insertAll [smallFile] smallFile.id
        [smallRow 4 none, smallRow 4 none]) session.store := by
  have misfit_eq : Row.ofValues ⟨[⟨.string, none⟩]⟩ [.string "x"] = .ok misfitRow := by decide +kernel
  have found : PoolId.smallStore.catalog.schema smallFile.id = .ok smallFile.schema := by decide +kernel
  let rows : List Row := [smallRow 4 none, misfitRow]
  have planned := insertedInto_ok (show _ = Except.ok (ofRows smallFile.schema rows).schema from found) ⟨0⟩ ⟨1⟩
  have made : ∀ row ∈ rows, row.Made := by
    simpa [rows] using And.intro (made_smallRow 4 none) (Row.Made.ofValues misfit_eq)
  let calls : List QueryCall := [.openAll, .rewind, .openAll]
  let insertion : Operator := .insert ⟨0⟩ ⟨1⟩ smallFile.id none (ofRows smallFile.schema rows) (.ofRows countSchema [])
  have session_eq : insertion.session calls PoolId.smallStore = insertion.session calls PoolId.smallStore := rfl
  obtain ⟨tries, attempts, answers⟩ :=
    session_insertedInto PoolId.filled_small made planned session_eq (by decide +kernel)
  let mismatch : StoreError := Schema.mismatch smallFile.schema misfitRow.schema
  have outcomes_eq : QueryCall.attempts calls (insertion.session calls PoolId.smallStore).outcomes =
      [.error (.refused mismatch), .error (.refused mismatch)] := by decide +kernel
  have before : ∀ {given}, Attempt smallFile.schema rows (.error (.refused mismatch)) given →
      given = [smallRow 4 none] := by
    intro given attempt
    cases attempt with
    | refused rows_eq reason =>
      obtain ⟨other, -⟩ := reason.resolve_left (by decide +kernel)
      change _ = [smallRow 4 none, misfitRow] at rows_eq
      rcases given with _ | ⟨first, _ | ⟨second, given⟩⟩
      · cases rows_eq
        exact absurd rfl other
      · cases rows_eq
        rfl
      · simp at rows_eq
  rw [outcomes_eq] at attempts
  refine ⟨_, _, planned, rfl, ?_⟩
  cases attempts with
  | cons first rest =>
    cases rest with
    | cons second rest =>
      cases rest
      rw [before first, before second] at answers
      exact answers

end Operator

end RowStore
