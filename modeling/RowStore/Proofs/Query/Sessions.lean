import RowStore.Proofs.Pool.Growth
import RowStore.Proofs.Query.ReadOnly

/-!
# Sessions of an operator

Whoever uses an operator opens, rewinds, closes and reads it in any order. An operator gives rows while it is open, and
otherwise refuses. A scan is opened by rewinding it as well.
-/

namespace RowStore

/-! ## Calls -/

inductive QueryCall where
  | openAll
  | rewind
  | closeAll
  | read (call : ReadCall)

inductive QueryAnswer where
  | done
  | read (answer : ReadAnswer)
  deriving DecidableEq

/-- What came of calls: their outcomes in turn, and what they left of the operator and of the store. -/
structure Session where
  outcomes : List (Except Failure QueryAnswer)
  operator : Operator
  store : Store

namespace Operator

def answer (op : Operator) (store : Store) : QueryCall → Run QueryAnswer
  | .openAll => let run := op.openAll store; ⟨run.outcome.map fun _ => .done, run.operator, run.store⟩
  | .rewind => let run := op.rewind store; ⟨run.outcome.map fun _ => .done, run.operator, run.store⟩
  | .closeAll => ⟨.ok .done, op.closeAll, store⟩
  | .read call => let run := op.perform store call; ⟨run.outcome.map .read, run.operator, run.store⟩

/-- Carries out calls in turn, each on what the calls before it left behind. -/
def session : List QueryCall → Operator → Store → Session
  | [], op, store => ⟨[], op, store⟩
  | call :: calls, op, store =>
    let run := op.answer store call
    let rest := session calls run.operator run.store
    ⟨run.outcome :: rest.outcomes, rest.operator, rest.store⟩

/-- Whether the operator itself is open. Those below it have marks of their own. -/
def isOpen : Operator → Bool
  | .scan source => source.cursor.isOpen
  | .values out | .filter _ _ out | .aggregate _ _ out | .insert _ _ _ _ _ out | .delete _ _ _ _ out => out.isOpen

def isScan : Operator → Bool
  | .scan _ => true
  | .values _ | .filter .. | .aggregate .. | .insert .. | .delete .. => false

/-- The call opens the operator. A scan is opened by rewinding it. -/
def OpensOn (op : Operator) (call : QueryCall) : Prop := call = .openAll ∨ op.isScan = true ∧ call = .rewind

/-- The operator was opened by one of the calls, and not closed after that. -/
def OpenedBy (op : Operator) (calls : List QueryCall) : Prop :=
  ∃ before call after, calls = before ++ call :: after ∧ op.OpensOn call ∧ .closeAll ∉ after

end Operator

/-! ## Reading a cursor -/

namespace TableCursor

theorem requireOpen_error {cursor : TableCursor} (shut : cursor.isOpen = false) (store : Store) :
    requireOpen (cursor, store) = .error (.refused .notOpen) (cursor, store) := by
  unfold requireOpen
  rw [Action.bind_ok (read_eq ..), shut]
  rfl

theorem advance_isOpen (left : Nat) (cursor : TableCursor) (store : Store) :
    Leads (fun _ s => s.1.isOpen = cursor.isOpen)
      (fun failure s => s.1.isOpen = cursor.isOpen ∧ failure ≠ .refused .notOpen) (advance left (cursor, store)) := by
  induction left generalizing cursor store with
  | zero =>
    unfold advance takeRow
    rw [Action.bind_ok (read_eq ..)]
    cases cursor.current with
    | nil => rfl
    | cons row rest => rfl
  | succ left ih =>
    unfold advance takeRow
    simp only [bind_assoc]
    rw [Action.bind_ok (read_eq ..)]
    cases cursor.current with
    | cons row rest => rfl
    | nil =>
      have run := turn_eq (pure none) (advance left) cursor store
      have tame := pageRows?_tame cursor.pool cursor.file cursor.nextPage store
      change Leads _ _ ((do if ← atEnd then pure none else loadPage; advance left :
        CursorAction (Option Row)) (cursor, store))
      rw [run]
      cases turned : pageRows? cursor.pool cursor.file cursor.nextPage store with
      | error failure store' =>
        rw [turned] at tame
        exact ⟨rfl, tame.2⟩
      | ok rows? store' =>
        cases rows? with
        | none => rfl
        | some rows => exact ih (cursor.turned rows) store'

theorem fetchRow_isOpen (cursor : TableCursor) (store : Store) :
    Leads (fun _ s => s.1.isOpen = cursor.isOpen)
      (fun failure s => s.1.isOpen = cursor.isOpen ∧ failure ≠ .refused .notOpen) (fetchRow (cursor, store)) :=
  advance_isOpen cursor.pagesLeft cursor store

theorem hasNext_isOpen {cursor : TableCursor} (isOpen : cursor.isOpen = true) (store : Store) :
    Leads (fun _ s => s.1.isOpen = true) (fun failure s => s.1.isOpen = true ∧ failure ≠ .refused .notOpen)
      (hasNext (cursor, store)) := by
  unfold hasNext
  rw [Action.bind_ok (requireOpen_ok isOpen store), Action.bind_ok (read_eq ..)]
  cases cursor.peeked with
  | some row => exact isOpen
  | none =>
    have fetched := isOpen ▸ fetchRow_isOpen cursor store
    exact fetched.bind fun row s open' => open'

theorem next_isOpen {cursor : TableCursor} (isOpen : cursor.isOpen = true) (store : Store) :
    Leads (fun _ s => s.1.isOpen = true) (fun failure s => s.1.isOpen = true ∧ failure ≠ .refused .notOpen)
      (next (cursor, store)) := by
  unfold next
  rw [Action.bind_ok (requireOpen_ok isOpen store), Action.bind_ok (read_eq ..)]
  cases cursor.peeked with
  | some row => exact isOpen
  | none => exact isOpen ▸ fetchRow_isOpen cursor store

end TableCursor

/-! ## Reading a buffer -/

namespace ReadCall

/-- The answer where these rows are left. -/
def answerOf (rows : List Row) : ReadCall → ReadAnswer
  | .look => .more rows.head?.isSome
  | .take => .given rows.head?

def leaves (rows : List Row) : ReadCall → List Row
  | .look => rows
  | .take => rows.tail

end ReadCall

theorem RowBuffer.hasNext_shut {buffer : RowBuffer} (shut : buffer.isOpen = false) :
    buffer.hasNext = .error .notOpen := by
  rw [hasNext, shut]
  rfl

theorem RowBuffer.next_shut {buffer : RowBuffer} (shut : buffer.isOpen = false) : buffer.next = .error .notOpen := by
  rw [next, shut]
  rfl

namespace Operator

namespace Buffers

variable {parent : RowBuffer → Operator} {out : RowBuffer}

theorem isOpen_eq (h : Buffers parent) (out : RowBuffer) : (parent out).isOpen = out.isOpen := by
  cases h <;> rfl

theorem isScan_eq (h : Buffers parent) (out : RowBuffer) : (parent out).isScan = false := by
  cases h <;> rfl

theorem perform_open (h : Buffers parent) (isOpen : out.isOpen = true) (store : Store) (call : ReadCall) :
    ∃ out', (parent out).perform store call = ⟨.ok (call.answerOf out.rest), parent out', store⟩ ∧
      out'.isOpen = true ∧ out'.rows = out.rows ∧ out'.rest = call.leaves out.rest := by
  unfold perform
  cases call with
  | look =>
    rw [h.hasNext_eq isOpen]
    exact ⟨out, rfl, isOpen, rfl, rfl⟩
  | take =>
    obtain ⟨out', next_eq, kept⟩ := h.next_ok isOpen store
    rw [next_eq]
    exact ⟨out', rfl, kept⟩

theorem perform_shut (h : Buffers parent) (shut : out.isOpen = false) (store : Store) (call : ReadCall) :
    (parent out).perform store call = ⟨.error (.refused .notOpen), parent out, store⟩ := by
  unfold perform Operator.hasNext Operator.next
  simp only [h.call_eq, callBuffer]
  cases call with
  | look =>
    simp only [RowBuffer.hasNext_shut shut]
    rfl
  | take =>
    simp only [RowBuffer.next_shut shut]
    rfl

theorem answer_keeps (h : Buffers parent) {call : QueryCall} (open_ne : call ≠ .openAll) (close_ne : call ≠ .closeAll)
    (out : RowBuffer) (store : Store) :
    ∃ out', ((parent out).answer store call).operator = parent out' ∧ out'.rows = out.rows ∧
      ((parent out).answer store call).store = store := by
  cases call with
  | openAll => exact absurd rfl open_ne
  | closeAll => exact absurd rfl close_ne
  | rewind =>
    unfold answer rewind
    dsimp only
    rw [h.call_eq, callBuffer]
    cases isOpen : out.isOpen with
    | false =>
      simp only [RowBuffer.rewind, isOpen]
      exact ⟨out, rfl, rfl, rfl⟩
    | true =>
      simp only [RowBuffer.rewind, isOpen]
      exact ⟨_, rfl, rfl, rfl⟩
  | read call =>
    unfold answer
    dsimp only
    cases isOpen : out.isOpen with
    | false =>
      rw [h.perform_shut isOpen]
      exact ⟨out, rfl, rfl, rfl⟩
    | true =>
      obtain ⟨out', run, -, rows_eq, -⟩ := h.perform_open isOpen store call
      rw [run]
      exact ⟨out', rfl, rows_eq, rfl⟩

end Buffers

/-! ## Open and shut -/

variable {op : Operator} {store : Store}

theorem callScan_shut {α : Type} {source : TableScan} {action : CursorAction α}
    (refused : action (source.cursor, store) = .error (.refused .notOpen) (source.cursor, store)) :
    callScan source action store = ⟨.error (.refused .notOpen), .scan source, store⟩ := by
  rw [callScan, refused]

theorem callScan_open {α : Type} {source : TableScan} {action : CursorAction α}
    (h : Leads (fun _ s => s.1.isOpen = true) (fun failure s => s.1.isOpen = true ∧ failure ≠ .refused .notOpen)
      (action (source.cursor, store))) (f : α → ReadAnswer) :
    (callScan source action store).operator.isOpen = true ∧ (callScan source action store).operator.isScan = true ∧
      (callScan source action store).outcome.map f ≠ .error (.refused .notOpen) := by
  unfold callScan
  cases run : action (source.cursor, store) with
  | ok a s =>
    rw [run] at h
    exact ⟨h, rfl, nofun⟩
  | error failure s =>
    rw [run] at h
    refine ⟨h.1, rfl, ?_⟩
    rintro ⟨⟩
    exact h.2 rfl

theorem perform_scan_shut {source : TableScan} (shut : source.cursor.isOpen = false) (store : Store)
    (call : ReadCall) : (scan source).perform store call = ⟨.error (.refused .notOpen), .scan source, store⟩ := by
  have refused := TableCursor.requireOpen_error shut store
  unfold perform Operator.hasNext Operator.next Operator.call
  cases call with
  | look =>
    have looked : TableCursor.hasNext (source.cursor, store) = .error (.refused .notOpen) (source.cursor, store) :=
      Action.bind_error refused
    dsimp only
    rw [callScan_shut looked]
    rfl
  | take =>
    have taken : TableCursor.next (source.cursor, store) = .error (.refused .notOpen) (source.cursor, store) :=
      Action.bind_error refused
    dsimp only
    rw [callScan_shut (Action.bind_error taken)]
    rfl

theorem perform_scan_open {source : TableScan} (isOpen : source.cursor.isOpen = true) (store : Store)
    (call : ReadCall) :
    ((scan source).perform store call).operator.isOpen = true ∧
      ((scan source).perform store call).operator.isScan = true ∧
      ((scan source).perform store call).outcome ≠ .error (.refused .notOpen) := by
  unfold perform Operator.hasNext Operator.next Operator.call
  cases call with
  | look => exact callScan_open (TableCursor.hasNext_isOpen isOpen store) .more
  | take =>
    have taken := TableCursor.next_isOpen isOpen store
    have presented : Leads (fun _ s => s.1.isOpen = true)
        (fun failure s => s.1.isOpen = true ∧ failure ≠ .refused .notOpen)
        ((return (← TableCursor.next).map source.present : CursorAction (Option Row)) (source.cursor, store)) :=
      taken.bind fun row s open' => open'
    exact callScan_open presented .given

theorem perform_isOpen (op : Operator) (store : Store) (call : ReadCall) :
    (op.perform store call).operator.isOpen = op.isOpen ∧ (op.perform store call).operator.isScan = op.isScan ∧
      ((op.perform store call).outcome = .error (.refused .notOpen) ↔ op.isOpen = false) := by
  rcases op.scan_or_buffers with ⟨source, rfl⟩ | ⟨parent, out, h, rfl⟩
  · cases isOpen : source.cursor.isOpen with
    | false =>
      rw [perform_scan_shut isOpen]
      exact ⟨rfl, rfl, fun _ => isOpen, fun _ => rfl⟩
    | true =>
      obtain ⟨open', scan', other⟩ := perform_scan_open isOpen store call
      exact ⟨open'.trans isOpen.symm, scan', fun refused => absurd refused other,
        fun shut => Bool.noConfusion (shut.symm.trans isOpen)⟩
  · rw [h.isOpen_eq, h.isScan_eq]
    cases isOpen : out.isOpen with
    | false =>
      rw [h.perform_shut isOpen]
      exact ⟨(h.isOpen_eq out).trans isOpen, h.isScan_eq out, fun _ => rfl, fun _ => rfl⟩
    | true =>
      obtain ⟨out', run, isOpen', -⟩ := h.perform_open isOpen store call
      rw [run]
      exact ⟨(h.isOpen_eq out').trans isOpen', h.isScan_eq out', nofun, nofun⟩

theorem rewind_isOpen (op : Operator) (store : Store) :
    (op.rewind store).operator.isOpen = (op.isOpen || op.isScan) ∧
      (op.rewind store).operator.isScan = op.isScan := by
  rcases op.scan_or_buffers with ⟨source, rfl⟩ | ⟨parent, out, h, rfl⟩
  · exact ⟨(Bool.or_true _).symm, rfl⟩
  · unfold rewind
    rw [h.call_eq, h.isOpen_eq, h.isScan_eq, Bool.or_false, callBuffer]
    cases isOpen : out.isOpen with
    | false =>
      simp only [RowBuffer.rewind, isOpen]
      exact ⟨(h.isOpen_eq out).trans isOpen, h.isScan_eq out⟩
    | true =>
      simp only [RowBuffer.rewind, isOpen]
      exact ⟨h.isOpen_eq _, h.isScan_eq _⟩

theorem isScan_openAll (op : Operator) (store : Store) : (op.openAll store).operator.isScan = op.isScan := by
  cases op with
  | values out | scan source => rfl
  | filter predicate child out | insert pool txn table done child out | delete pool txn done child out =>
    unfold openAll
    simp only [Run.collect, Run.collectCount]
    split <;> rfl
  | aggregate aggregation child out =>
    unfold openAll
    split
    · rfl
    · simp only [Run.collect]
      split <;> rfl

theorem isOpen_openAll (opened : (op.openAll store).outcome = .ok ()) : (op.openAll store).operator.isOpen = true := by
  cases op with
  | values out | scan source => rfl
  | filter predicate child out | insert pool txn table done child out | delete pool txn done child out =>
    unfold openAll at opened ⊢
    simp only [Run.collect, Run.collectCount] at opened ⊢
    split at opened
    · rfl
    · cases opened
  | aggregate aggregation child out =>
    unfold openAll at opened ⊢
    split at opened
    · cases opened
    · simp only [Run.collect] at opened ⊢
      split at opened
      · rfl
      · cases opened

theorem closeAll_isOpen (op : Operator) : op.closeAll.isOpen = false ∧ op.closeAll.isScan = op.isScan := by
  cases op <;> exact ⟨rfl, rfl⟩

/-! ## Sessions -/

theorem isScan_answer (op : Operator) (store : Store) (call : QueryCall) :
    (op.answer store call).operator.isScan = op.isScan := by
  cases call with
  | openAll => exact op.isScan_openAll store
  | rewind => exact (op.rewind_isOpen store).2
  | closeAll => exact op.closeAll_isOpen.2
  | read call => exact (op.perform_isOpen store call).2.1

theorem isOpen_answer (op : Operator) (store : Store) {call : QueryCall}
    (opened : call = .openAll → (op.answer store call).outcome = .ok .done) :
    (op.answer store call).operator.isOpen = true ↔ op.OpensOn call ∨ op.isOpen = true ∧ call ≠ .closeAll := by
  unfold OpensOn
  cases call with
  | openAll =>
    have ok : (op.openAll store).outcome = .ok () := by
      have opened := opened rfl
      simp only [answer] at opened
      cases outcome : (op.openAll store).outcome with
      | ok _ => rfl
      | error failure =>
        rw [outcome] at opened
        cases opened
    simpa [answer] using isOpen_openAll ok
  | rewind =>
    have rewound := (op.rewind_isOpen store).1
    simp only [answer, rewound, Bool.or_eq_true]
    simp [or_comm]
  | closeAll => simp [answer, op.closeAll_isOpen.1]
  | read call => simp [answer, (op.perform_isOpen store call).1]

theorem openedBy_cons (op : Operator) (call : QueryCall) (calls : List QueryCall) :
    op.OpenedBy (call :: calls) ↔ op.OpenedBy calls ∨ op.OpensOn call ∧ .closeAll ∉ calls := by
  constructor
  · rintro ⟨before, opening, after, calls_eq, opens, open'⟩
    cases before with
    | nil =>
      cases calls_eq
      exact .inr ⟨opens, open'⟩
    | cons first before =>
      cases calls_eq
      exact .inl ⟨before, opening, after, rfl, opens, open'⟩
  · rintro (⟨before, opening, after, rfl, opens, open'⟩ | ⟨opens, open'⟩)
    · exact ⟨call :: before, opening, after, rfl, opens, open'⟩
    · exact ⟨[], call, calls, rfl, opens, open'⟩

theorem isOpen_session {calls : List QueryCall}
    (opened : ∀ i : Nat, calls[i]? = some .openAll → (op.session calls store).outcomes[i]? = some (.ok .done)) :
    (op.session calls store).operator.isOpen = true ↔
      op.OpenedBy calls ∨ op.isOpen = true ∧ .closeAll ∉ calls := by
  induction calls generalizing op store with
  | nil =>
    refine ⟨fun isOpen => .inr ⟨isOpen, List.not_mem_nil⟩, ?_⟩
    rintro (⟨before, _, _, nil_eq, -⟩ | ⟨isOpen, -⟩)
    · simp at nil_eq
    · exact isOpen
  | cons call calls ih =>
    have opened' : call = .openAll → (op.answer store call).outcome = .ok .done := fun same =>
      Option.some.inj (opened 0 (congrArg some same))
    have first := op.isOpen_answer store opened'
    have rest : (session calls (op.answer store call).operator (op.answer store call).store).operator.isOpen = true ↔
        (op.answer store call).operator.OpenedBy calls ∨
          (op.answer store call).operator.isOpen = true ∧ .closeAll ∉ calls :=
      ih fun i here => opened (i + 1) here
    have same_opens : ∀ calls, (op.answer store call).operator.OpenedBy calls ↔ op.OpenedBy calls := by
      intro calls
      unfold OpenedBy OpensOn
      rw [op.isScan_answer]
    rw [session, rest, same_opens, first, openedBy_cons, List.mem_cons, not_or, ne_comm, or_and_right, or_assoc,
      and_assoc]

/-- However an operator that was not open is used, with no opening of it failing: a look for a row and the taking of
one are refused for not being open just where no call opened it that was not followed by closing it. A scan counts as
opened by a rewinding as well, any other operator does not. -/
theorem read_notOpen_iff (shut : op.isOpen = false) {calls : List QueryCall} {session : Session}
    (session_eq : op.session calls store = session)
    (opened : ∀ i : Nat, calls[i]? = some .openAll → session.outcomes[i]? = some (.ok .done)) (call : ReadCall) :
    (session.operator.perform session.store call).outcome = .error (.refused .notOpen) ↔ ¬op.OpenedBy calls := by
  subst session_eq
  have isOpen := isOpen_session opened
  rw [shut] at isOpen
  rw [(perform_isOpen _ _ call).2.2, ← Bool.not_eq_true, isOpen]
  simp

/-- A scan that nobody opened gives a row after it was rewound. A filter above it that was opened, closed and rewound is
refused. -/
theorem read_notOpen_iff_of_rewinding :
    ∃ scanned filtered : Session,
      (smallScan none).session [.rewind] PoolId.smallStore = scanned ∧
      ((smallScan none).filtered ⟨0, .gt, .constant (.int 1)⟩).session [.openAll, .closeAll, .rewind]
        PoolId.smallStore = filtered ∧
      (scanned.operator.perform scanned.store .take).outcome ≠ .error (.refused .notOpen) ∧
      (filtered.operator.perform filtered.store .take).outcome = .error (.refused .notOpen) := by
  refine ⟨_, _, rfl, rfl, ?scanned, ?filtered⟩
  case scanned =>
    refine fun refused => (read_notOpen_iff rfl rfl ?opened .take).mp refused ?rewound
    case opened =>
      intro i here
      obtain ⟨lt, same⟩ := List.getElem?_eq_some_iff.mp here
      simp at same
    case rewound => exact ⟨[], .rewind, [], rfl, .inr ⟨rfl, rfl⟩, List.not_mem_nil⟩
  case filtered =>
    refine (read_notOpen_iff rfl rfl ?opened .take).mpr ?closed
    case opened =>
      intro i here
      rcases i with _ | _ | _ | i
      · decide +kernel
      all_goals simp at here
    case closed =>
      rintro ⟨before, opening, after, calls_eq, rfl | ⟨scan, -⟩, open'⟩
      · rcases before with _ | ⟨_, _ | ⟨_, _ | ⟨_, before⟩⟩⟩
        · cases calls_eq
          exact open' List.mem_cons_self
        all_goals simp at calls_eq
      · cases scan

end Operator

end RowStore
