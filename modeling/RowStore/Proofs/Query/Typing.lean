import RowStore.Proofs.Pool.Settled
import RowStore.Proofs.Query.FirstOpening

/-!
# Well-typed operators

An operator is well-typed where the rows that it has are rows of its schema, where its scans read files that are
registered, and where the rows that are stored below it are of the schema of their table. Calls keep an operator
well-typed as long as the pages in memory have the schemas of their tables, and every row that is given is a row of the
operator's schema then.
-/

namespace RowStore

open RowStore.Store (Settled Spared)

variable {catalog : Catalog} {store : Store} {α σ : Type}

/-! ## Predicates -/

/-- Both sides of the comparison are there in rows of the schema, and have one type. -/
def Predicate.Compares (predicate : Predicate) (schema : Schema) : Prop :=
  ∃ type, schema.types[predicate.column]? = some type ∧
    match predicate.operand with
    | .constant v => v.type = type
    | .column index => schema.types[index]? = some type

theorem Row.Of.types_eq {row : Row} {schema : Schema} (h : row.Of schema) : row.values.map Value.type = schema.types :=
  h.schema_eq ▸ h.conforms

theorem Row.value_ok {row : Row} {schema : Schema} (types_eq : row.values.map Value.type = schema.types) {index : Nat}
    {type : ColumnType} (type_eq : schema.types[index]? = some type) :
    ∃ v, row.value index = .ok v ∧ v.type = type := by
  obtain ⟨v, here, v_type⟩ := Row.exists_value types_eq type_eq
  refine ⟨v, ?_, v_type⟩
  rw [Row.value, here]

theorem Value.compare_ok {a b : Value} (same : a.type = b.type) (c : Comparison) :
    ∃ holds, a.compare c b = .ok holds := by
  cases a <;> cases b <;> cases same <;> cases c <;> exact ⟨_, rfl⟩

theorem Predicate.Compares.applies {predicate : Predicate} {schema : Schema} (h : predicate.Compares schema) {row : Row}
    (types_eq : row.values.map Value.type = schema.types) : predicate.Applies row := by
  obtain ⟨type, left_type, right_type⟩ := h
  obtain ⟨left, left_eq, rfl⟩ := Row.value_ok types_eq left_type
  unfold Applies holds
  rw [left_eq]
  cases operand_eq : predicate.operand with
  | constant v =>
    rw [operand_eq] at right_type
    exact Value.compare_ok right_type.symm predicate.comparison
  | column index =>
    rw [operand_eq] at right_type
    obtain ⟨right, right_eq, same⟩ := Row.value_ok types_eq right_type
    dsimp only
    rw [right_eq]
    exact Value.compare_ok same.symm predicate.comparison

/-! ## Cursors -/

namespace TableCursor

/-- The cursor is on a file, has rows of its schema, and goes over a settled store. -/
structure Reading (catalog : Catalog) (file : TableFile) (s : TableCursor × Store) : Prop where
  file_eq : s.1.file = file
  current : ∀ row ∈ s.1.current, row.Of file.schema
  peeked : ∀ row ∈ s.1.peeked, row.Of file.schema
  settled : s.2.Settled catalog

/-- What a call of the cursor leads to when it gives a row or none. -/
def Gave (catalog : Catalog) (file : TableFile) (row? : Option Row) (s : TableCursor × Store) : Prop :=
  Reading catalog file s ∧ ∀ row ∈ row?, row.Of file.schema

variable {file : TableFile} {s : TableCursor × Store}

theorem takeRow_reading (h : Reading catalog file s) :
    Leads (Gave catalog file) (fun _ => Reading catalog file) (takeRow s) := by
  obtain ⟨cursor, store⟩ := s
  unfold takeRow
  rw [Action.bind_ok (read_eq ..)]
  cases current_eq : cursor.current with
  | nil => exact ⟨h, nofun⟩
  | cons row rest =>
    have current : ∀ other ∈ row :: rest, other.Of file.schema := current_eq ▸ h.current
    refine ⟨⟨h.file_eq, fun other mem => current other (List.mem_cons_of_mem _ mem), h.peeked, h.settled⟩, ?_⟩
    rintro _ ⟨⟩
    exact current row List.mem_cons_self

variable (found : catalog.file file.id = .ok file)

include found

theorem advance_reading (left : Nat) (h : Reading catalog file s) :
    Leads (Gave catalog file) (fun _ => Reading catalog file) (advance left s) := by
  induction left generalizing s with
  | zero => exact takeRow_reading h
  | succ left ih =>
    unfold advance
    -- Only when the rows of a page are used up is another page read, with one fewer to go.
    refine (takeRow_reading h).bind fun row? s taken => ?_
    cases row? with
    | some row => exact taken
    | none =>
      obtain ⟨cursor, store⟩ := s
      obtain ⟨⟨rfl, current, peeked, settled⟩, -⟩ := taken
      have run := turn_eq (pure none) (advance left) cursor store
      have turned := settled.pageRows? found cursor.pool cursor.nextPage
      change Leads _ _ ((do if ← atEnd then pure none else loadPage; advance left :
        CursorAction (Option Row)) (cursor, store))
      rw [run]
      cases pages : pageRows? cursor.pool cursor.file cursor.nextPage store with
      | error failure store' =>
        rw [pages] at turned
        exact ⟨rfl, current, peeked, turned.1⟩
      | ok rows? store' =>
        rw [pages] at turned
        cases rows? with
        | none => exact ⟨⟨rfl, current, peeked, turned.1⟩, fun _ mem => absurd mem (Option.not_mem_none _)⟩
        | some rows =>
          have next : Reading catalog cursor.file (cursor.turned rows, store') :=
            ⟨rfl, turned.2 rows rfl, peeked, turned.1⟩
          exact ih next

theorem fetchRow_reading (h : Reading catalog file s) :
    Leads (Gave catalog file) (fun _ => Reading catalog file) (fetchRow s) := advance_reading found s.1.pagesLeft h

theorem hasNext_reading (h : Reading catalog file s) :
    Leads (fun _ => Reading catalog file) (fun _ => Reading catalog file) (hasNext s) := by
  obtain ⟨cursor, store⟩ := s
  unfold hasNext
  cases isOpen : cursor.isOpen with
  | false =>
    rw [Action.bind_error (requireOpen_error isOpen store)]
    exact h
  | true =>
    rw [Action.bind_ok (requireOpen_ok isOpen store), Action.bind_ok (read_eq ..)]
    cases cursor.peeked with
    | some row => exact h
    | none =>
      exact (fetchRow_reading found h).bind fun row? s ⟨reading, of⟩ =>
        ⟨reading.file_eq, reading.current, of, reading.settled⟩

theorem next_reading (h : Reading catalog file s) :
    Leads (Gave catalog file) (fun _ => Reading catalog file) (next s) := by
  obtain ⟨cursor, store⟩ := s
  unfold next
  cases isOpen : cursor.isOpen with
  | false =>
    rw [Action.bind_error (requireOpen_error isOpen store)]
    exact h
  | true =>
    rw [Action.bind_ok (requireOpen_ok isOpen store), Action.bind_ok (read_eq ..)]
    cases peeked_eq : cursor.peeked with
    | some row =>
      have peeked : ∀ other ∈ some row, other.Of file.schema := peeked_eq ▸ h.peeked
      exact ⟨⟨h.file_eq, h.current, nofun, h.settled⟩, peeked⟩
    | none => exact fetchRow_reading found h

theorem feed_reading {inv : σ → Prop} {failed : Failure → Store → Prop} {step : σ → Row → Action σ}
    (stepped : ∀ {acc row store}, inv acc → row.Of file.schema → Settled catalog store →
      Leads (fun acc after => inv acc ∧ after.Settled catalog) failed (step acc row store))
    (spared : ∀ {failure after}, Spared catalog failure after → failed failure after)
    (h : Reading catalog file s) {acc : σ} (start : inv acc) :
    Leads (fun acc s => inv acc ∧ s.2.Settled catalog) (fun failure s => failed failure s.2) (feed step acc s) := by
  obtain ⟨cursor, store⟩ := s
  cases isOpen : cursor.isOpen with
  | false =>
    unfold feed
    rw [Action.bind_error (requireOpen_error isOpen store)]
    exact spared ⟨h.settled, nofun⟩
  | true =>
    let At (_ : Nat) (rest : List Row) (acc : σ) (store : Store) : Prop :=
      inv acc ∧ (∀ row ∈ rest, row.Of file.schema) ∧ store.Settled catalog
    have stepped' : ∀ {n row rest acc store}, At n (row :: rest) acc store →
        Leads (At n rest) failed (step acc row store) := by
      rintro n row rest acc store ⟨here, of, settled⟩
      refine (stepped here (of row List.mem_cons_self) settled).mono ?_ fun _ _ ended => ended
      rintro acc' after ⟨here', settled'⟩
      exact ⟨here', fun other mem => of other (List.mem_cons_of_mem _ mem), settled'⟩
    have turns : ∀ {n acc store}, n < UInt32.size → At n [] acc store →
        Leads (fun rows? after => rows?.elim (inv acc ∧ after.Settled catalog) fun rows => At (n + 1) rows acc after)
          failed (pageRows? cursor.pool file (UInt32.ofNat n) store) := by
      rintro n acc store - ⟨here, -, settled⟩
      refine (settled.pageRows? found cursor.pool _).mono ?_ fun _ _ ended => spared ended
      rintro rows? after ⟨settled', of⟩
      cases rows? with
      | none => exact ⟨here, settled'⟩
      | some rows => exact ⟨here, of rows rfl, settled'⟩
    have last : ∀ {acc store}, At UInt32.size [] acc store → inv acc ∧ store.Settled catalog :=
      fun ⟨here, _, settled⟩ => ⟨here, settled⟩
    refine feed_leads @stepped' @turns @last cursor isOpen rfl h.file_eq ⟨start, fun row mem => ?_, h.settled⟩
    rcases List.mem_append.mp mem with mem | mem
    · exact h.peeked row (Option.mem_toList.mp mem)
    · exact h.current row mem

end TableCursor

/-! ## Operators -/

/-- The scan reads a registered file and gives the rows of that file as rows of its own schema. -/
structure TableScan.WellTyped (catalog : Catalog) (source : TableScan) : Prop where
  found : catalog.file source.cursor.file.id = .ok source.cursor.file
  presents : ∀ row : Row, row.Of source.cursor.file.schema → (source.present row).Of source.schema
  current : ∀ row ∈ source.cursor.current, row.Of source.cursor.file.schema
  peeked : ∀ row ∈ source.cursor.peeked, row.Of source.cursor.file.schema

namespace TableScan.WellTyped

variable {source : TableScan} {cursor : TableCursor}

theorem reading (h : source.WellTyped catalog) (settled : store.Settled catalog) :
    TableCursor.Reading catalog source.cursor.file (source.cursor, store) := ⟨rfl, h.current, h.peeked, settled⟩

theorem withCursor (h : source.WellTyped catalog)
    (reading : TableCursor.Reading catalog source.cursor.file (cursor, store)) :
    TableScan.WellTyped catalog { source with cursor } := by
  have file_eq : cursor.file = source.cursor.file := reading.file_eq
  constructor
  case found => simpa only [file_eq] using h.found
  case presents => exact fun row of => h.presents row (file_eq ▸ of)
  case current => simpa only [file_eq] using reading.current
  case peeked => simpa only [file_eq] using reading.peeked

end TableScan.WellTyped

namespace Operator

/-- The rows that the operator has are rows of its schema, as are those that it comes to have, as long as the tables are
registered in this catalog. -/
def WellTyped (catalog : Catalog) : Operator → Prop
  | .values out => ∀ row ∈ out.rows, row.Of out.schema
  | .scan source => source.WellTyped catalog
  | .filter _ child out => child.WellTyped catalog ∧ ∀ row ∈ out.rows, row.Of child.schema
  | .aggregate aggregation child out => child.WellTyped catalog ∧ ∀ row ∈ out.rows, row.Of aggregation.schema
  | .insert _ _ table _ child out =>
    (child.WellTyped catalog ∧ ∃ file, catalog.file table = .ok file ∧ file.schema = child.schema) ∧
      ∀ row ∈ out.rows, row.Of countSchema
  | .delete _ _ _ child out => child.WellTyped catalog ∧ ∀ row ∈ out.rows, row.Of countSchema

end Operator

structure Run.WellTyped (catalog : Catalog) (run : Run α) : Prop where
  operator : run.operator.WellTyped catalog
  settled : run.store.Settled catalog

theorem RowBuffer.of_next_eq_ok {out out' : RowBuffer} {row? : Option Row} (h : out.next = .ok (row?, out')) :
    out.rows[out.position]? = row? ∧ out'.rows = out.rows ∧ out'.schema = out.schema := by
  unfold next at h
  split at h
  · split at h
    all_goals
      next here =>
        cases h
        exact ⟨here, rfl, rfl⟩
  · cases h

namespace Operator

variable {op child : Operator} {parent : RowBuffer → Operator} {out out' : RowBuffer} {row : Row}

theorem of_countRow (n : Int32) : (countRow n).Of countSchema := ⟨rfl, rfl⟩

theorem schema_openAll (op : Operator) (store : Store) : (op.openAll store).operator.schema = op.schema := by
  induction op generalizing store with
  | values out => rfl
  | scan source => rfl
  | filter predicate child out ih =>
    unfold openAll Run.collect
    dsimp only
    split
    all_goals exact (congrArg schema (Run.operator_feed ..)).trans (ih store)
  | aggregate aggregation child out ih =>
    unfold openAll Run.collect
    cases aggregation.start with
    | error e => rfl
    | ok start =>
      dsimp only
      split <;> rfl
  | insert pool txn table done child out ih =>
    unfold openAll Run.collectCount
    dsimp only
    split <;> rfl
  | delete pool txn done child out ih =>
    unfold openAll Run.collectCount
    dsimp only
    split <;> rfl

theorem schema_closeAll (op : Operator) : op.closeAll.schema = op.schema := by
  induction op with
  | filter predicate child out ih => exact ih
  | values | scan | aggregate | insert | delete => rfl

/-! ## Rows in a buffer -/

namespace Buffers

theorem of_rows (h : Buffers parent) (typed : (parent out).WellTyped catalog) :
    ∀ row ∈ out.rows, row.Of (parent out).schema := by
  cases h with
  | values => exact typed
  | filter => exact typed.2
  | aggregate => exact typed.2
  | insert => exact typed.2
  | delete => exact typed.2

theorem withOut (h : Buffers parent) (typed : (parent out).WellTyped catalog) (rows_eq : out'.rows = out.rows)
    (schema_eq : out'.schema = out.schema) : (parent out').WellTyped catalog := by
  cases h with
  | values =>
    unfold WellTyped
    rw [rows_eq, schema_eq]
    exact typed
  | filter | aggregate | insert | delete =>
    unfold WellTyped
    rw [rows_eq]
    exact typed

end Buffers

namespace WellTyped

theorem call (h : op.WellTyped catalog) (settled : store.Settled catalog) {onScan : TableScan → CursorAction α}
    {onBuffer : RowBuffer → Except StoreError (α × RowBuffer)}
    (scans : ∀ source, source.WellTyped catalog →
      Leads (fun _ => TableCursor.Reading catalog source.cursor.file)
        (fun _ => TableCursor.Reading catalog source.cursor.file) (onScan source (source.cursor, store)))
    (buffers : ∀ out a out', onBuffer out = .ok (a, out') → out'.rows = out.rows ∧ out'.schema = out.schema) :
    (op.call onScan onBuffer store).WellTyped catalog := by
  rcases op.scan_or_buffers with ⟨source, rfl⟩ | ⟨parent, out, isBuffer, rfl⟩
  · have source_typed : source.WellTyped catalog := h
    have led := scans source source_typed
    change (callScan source (onScan source) store).WellTyped catalog
    unfold callScan
    cases run : onScan source (source.cursor, store) with
    | ok a s =>
      rw [run] at led
      exact ⟨source_typed.withCursor led, led.settled⟩
    | error failure s =>
      rw [run] at led
      exact ⟨source_typed.withCursor led, led.settled⟩
  · rw [isBuffer.call_eq, callBuffer]
    cases run : onBuffer out with
    | ok result =>
      obtain ⟨rows_eq, schema_eq⟩ := buffers out result.1 result.2 run
      exact ⟨isBuffer.withOut h rows_eq schema_eq, settled⟩
    | error e => exact ⟨h, settled⟩

theorem hasNext (h : op.WellTyped catalog) (settled : store.Settled catalog) :
    (op.hasNext store).WellTyped catalog := by
  refine h.call settled (fun source typed => TableCursor.hasNext_reading typed.found (typed.reading settled)) ?_
  intro out more out' looked
  obtain ⟨_, -, same⟩ := of_map_eq_ok looked
  cases same
  exact ⟨rfl, rfl⟩

theorem next (h : op.WellTyped catalog) (settled : store.Settled catalog) : (op.next store).WellTyped catalog := by
  refine h.call settled (fun source typed => ?_) ?_
  · exact (TableCursor.next_reading typed.found (typed.reading settled)).bind fun row? s gave => gave.1
  · exact fun out row? out' taken => (RowBuffer.of_next_eq_ok taken).2

theorem rewind (h : op.WellTyped catalog) (settled : store.Settled catalog) :
    (op.rewind store).WellTyped catalog := by
  refine h.call settled (fun source typed => ?_) ?_
  · exact ⟨rfl, nofun, nofun, settled⟩
  · intro out _ out' rewound
    obtain ⟨out'', again, same⟩ := of_map_eq_ok rewound
    cases same
    unfold RowBuffer.rewind at again
    split at again
    · cases again
      exact ⟨rfl, rfl⟩
    · cases again

theorem closeAll (h : op.WellTyped catalog) : op.closeAll.WellTyped catalog := by
  induction op with
  | values out => exact h
  | scan source => exact ⟨h.found, h.presents, nofun, nofun⟩
  | filter predicate child out ih =>
    refine ⟨ih h.1, ?_⟩
    rw [schema_closeAll]
    exact h.2
  | aggregate aggregation child out ih => exact ⟨ih h.1, h.2⟩
  | insert pool txn table done child out ih =>
    refine ⟨⟨ih h.1.1, ?_⟩, h.2⟩
    rw [schema_closeAll]
    exact h.1.2
  | delete pool txn done child out ih => exact ⟨ih h.1, h.2⟩

theorem of_next (h : op.WellTyped catalog) (settled : store.Settled catalog)
    (given : (op.next store).outcome = .ok (some row)) : row.Of op.schema := by
  rcases op.scan_or_buffers with ⟨source, rfl⟩ | ⟨parent, out, isBuffer, rfl⟩
  · have typed : source.WellTyped catalog := h
    have led := TableCursor.next_reading typed.found (typed.reading settled)
    unfold Operator.next Operator.call callScan at given
    dsimp only at given
    cases run : TableCursor.next (source.cursor, store) with
    | error failure s =>
      rw [Action.bind_error run] at given
      cases given
    | ok row? s =>
      rw [run] at led
      rw [Action.bind_ok run] at given
      cases row? with
      | none => cases given
      | some stored =>
        cases given
        exact typed.presents stored (led.2 stored rfl)
  · unfold Operator.next at given
    rw [isBuffer.call_eq, callBuffer] at given
    cases run : out.next with
    | error e =>
      rw [run] at given
      cases given
    | ok result =>
      rw [run] at given
      obtain ⟨row?, out'⟩ := result
      cases given
      obtain ⟨here, -⟩ := RowBuffer.of_next_eq_ok run
      exact isBuffer.of_rows h row (List.mem_of_getElem? here)

end WellTyped

end Operator

end RowStore
