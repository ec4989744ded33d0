import RowStore.Proofs.Query.TypedOpening

/-!
# Soundness of types

Operators are built from rows, scans and one another, and are called while others use the store. As long as the catalog
stays what it is, and pages in memory have the schemas of their tables, every row that an operator gives is a row of its
schema, and neither comparing nor storing rows fails for a reason of types.
-/

namespace RowStore

open RowStore.Store (Settled)

variable {catalog : Catalog} {store : Store}

/-! ## Parts -/

def Operator.child? : Operator → Option Operator
  | .values _ | .scan _ => none
  | .filter _ child _ | .aggregate _ child _ | .insert _ _ _ _ child _ | .delete _ _ _ child _ => some child

inductive Operator.Part (part : Operator) : Operator → Prop where
  | self : Part part part
  | under {op child : Operator} (child_eq : op.child? = some child) (h : Part part child) : Part part op

theorem Operator.WellTyped.part {op part : Operator} (h : op.WellTyped catalog) (below : part.Part op) :
    part.WellTyped catalog := by
  induction below with
  | self => exact h
  | @under op child child_eq _ ih =>
    refine ih ?_
    cases op with
    | values | scan => cases child_eq
    | filter | aggregate | delete =>
      cases child_eq
      exact h.1
    | insert =>
      cases child_eq
      exact h.1.1

/-! ## Operators at work -/

/-- The operators over a store and what became of the store. Operators are built and called in any order, and others use
the store in ways that leave the catalog as it is. -/
inductive Serving (start : Store) : List Operator → Store → Prop where
  | start : Serving start [] start
  | ofRows {ops : List Operator} {store : Store} (h : Serving start ops store) {schema : Schema} {rows : List Row}
      (made : ∀ row ∈ rows, row.Of schema) : Serving start (Operator.ofRows schema rows :: ops) store
  | ofTable {ops : List Operator} {store after : Store} (h : Serving start ops store) {pool : PoolId} {table : TableId}
      {qualifier : Option String} {op : Operator}
      (built : Operator.ofTable pool table qualifier store = .ok op after) : Serving start (op :: ops) after
  | filtered {ops : List Operator} {store : Store} (h : Serving start ops store) {i : Nat} {child : Operator}
      (here : ops[i]? = some child) (predicate : Predicate) :
      Serving start (ops.set i (child.filtered predicate)) store
  | aggregated {ops : List Operator} {store : Store} (h : Serving start ops store) {i : Nat} {child op : Operator}
      (here : ops[i]? = some child) {column : Nat} {group : Option Nat} {aggregate : Aggregate}
      (built : child.aggregated column group aggregate = .ok op) : Serving start (ops.set i op) store
  | insertedInto {ops : List Operator} {store after : Store} (h : Serving start ops store) {i : Nat}
      {child op : Operator} (here : ops[i]? = some child) {pool : PoolId} {txn : TxnId} {table : TableId}
      (built : child.insertedInto pool txn table store = .ok op after) : Serving start (ops.set i op) after
  | deleted {ops : List Operator} {store : Store} (h : Serving start ops store) {i : Nat} {child : Operator}
      (here : ops[i]? = some child) (pool : PoolId) (txn : TxnId) :
      Serving start (ops.set i (child.deleted pool txn)) store
  | call {ops : List Operator} {store : Store} (h : Serving start ops store) {i : Nat} {op : Operator}
      (here : ops[i]? = some op) (call : QueryCall) :
      Serving start (ops.set i (op.answer store call).operator) (op.answer store call).store
  | request {ops : List Operator} {store : Store} (h : Serving start ops store) (request : StoreRequest)
      (admitted : request.Admitted Page.Formed Row.Conforms store)
      (same : (request.run.after store).catalog = store.catalog) : Serving start ops (request.run.after store)

namespace Operator

variable {op child : Operator} {after : Store} {pool : PoolId} {txn : TxnId} {table : TableId}

theorem ofTable_looks (pool : PoolId) (table : TableId) (qualifier : Option String) :
    (ofTable pool table qualifier).Looks :=
  .bind (.bind (Store.lookUp_looks _) fun _ => .bind (Store.lookUp_looks _) fun _ => .pure _) fun _ => .pure _

theorem insertedInto_looks (child : Operator) (pool : PoolId) (txn : TxnId) (table : TableId) :
    (child.insertedInto pool txn table).Looks := by
  refine .bind (Store.lookUp_looks _) fun target => ?_
  split
  · exact .bind (.fail _) fun _ => .pure _
  · exact .pure _

theorem wellTyped_ofTable (settled : store.Settled catalog) {qualifier : Option String}
    (built : ofTable pool table qualifier store = .ok op after) : op.WellTyped catalog := by
  obtain ⟨source, middle, planned, built⟩ := Action.of_bind_ok built
  cases built
  obtain ⟨file, name, found, rfl⟩ := TableScan.of_plan planned
  rw [settled.catalog_eq] at found
  refine ⟨(settled.keyed table file found).symm ▸ found, fun row of => ?_, nofun, nofun⟩
  cases qualifier with
  | none => exact of
  | some qualifier =>
    refine ⟨rfl, ?_⟩
    have conforms := of.conforms
    unfold Row.Conforms at conforms
    rw [of.schema_eq] at conforms
    exact conforms.trans (Schema.types_qualify ..).symm

theorem WellTyped.filtered (h : child.WellTyped catalog) (predicate : Predicate) :
    (child.filtered predicate).WellTyped catalog := ⟨h, nofun⟩

theorem WellTyped.aggregated (h : child.WellTyped catalog) {column : Nat} {group : Option Nat} {aggregate : Aggregate}
    (built : child.aggregated column group aggregate = .ok op) : op.WellTyped catalog := by
  obtain ⟨aggregation, -, built⟩ := of_bind_eq_ok built
  cases built
  exact ⟨h, nofun⟩

theorem WellTyped.insertedInto (h : child.WellTyped store.catalog)
    (built : child.insertedInto pool txn table store = .ok op after) : op.WellTyped store.catalog := by
  obtain ⟨rfl, file, found, schema_eq⟩ := of_insertedInto built
  exact ⟨⟨h, file, found, schema_eq⟩, nofun⟩

theorem WellTyped.deleted (h : child.WellTyped catalog) (pool : PoolId) (txn : TxnId) :
    (child.deleted pool txn).WellTyped catalog := ⟨h, nofun⟩

end Operator

theorem Store.Settled.request (h : store.Settled catalog) {request : StoreRequest}
    (admitted : request.Admitted Page.Formed Row.Conforms store)
    (same : (request.run.after store).catalog = store.catalog) : (request.run.after store).Settled catalog := by
  have tidy : (request.run.after store).Tidy := request.run_orderly store h.tidy
  rcases request.after_cases Page.lasting_formed admitted h.tidy with
    evolved | ⟨file, name, primaryKey, -, after_eq⟩ | ⟨-, after_eq⟩
  · exact h.evolves tidy evolved
  -- Of the requests that change catalogs only those are left that put what was there before.
  all_goals
    have unchanged : request.run.after store = store := by
      rw [after_eq] at same ⊢
      exact congrArg (fun catalog => { store with catalog }) same
    rw [unchanged]
    exact h

theorem Serving.wellTyped {start : Store} {ops : List Operator} (serving : Serving start ops store)
    (settled : start.Settled catalog) : store.Settled catalog ∧ ∀ op ∈ ops, op.WellTyped catalog := by
  have withOp : ∀ {ops : List Operator} {i : Nat} {op : Operator}, (∀ op ∈ ops, op.WellTyped catalog) →
      op.WellTyped catalog → ∀ other ∈ ops.set i op, other.WellTyped catalog := by
    intro ops i op typed typed' other mem
    rcases List.mem_or_eq_of_mem_set mem with old | rfl
    · exact typed other old
    · exact typed'
  induction serving with
  | start => exact ⟨settled, nofun⟩
  | ofRows _ made ih => exact ⟨ih.1, List.forall_mem_cons.mpr ⟨made, ih.2⟩⟩
  | @ofTable _ _ _ _ pool table qualifier _ built ih =>
    -- Planning a scan only asks the catalog.
    cases (Operator.ofTable_looks pool table qualifier).store_eq built
    exact ⟨ih.1, List.forall_mem_cons.mpr ⟨Operator.wellTyped_ofTable ih.1 built, ih.2⟩⟩
  | filtered _ here predicate ih =>
    exact ⟨ih.1, withOp ih.2 ((ih.2 _ (List.mem_of_getElem? here)).filtered predicate)⟩
  | aggregated _ here built ih => exact ⟨ih.1, withOp ih.2 ((ih.2 _ (List.mem_of_getElem? here)).aggregated built)⟩
  | @insertedInto _ _ _ _ _ child _ here pool txn table built ih =>
    cases (child.insertedInto_looks pool txn table).store_eq built
    obtain ⟨settled', typed⟩ := ih
    have below := typed _ (List.mem_of_getElem? here)
    rw [← settled'.catalog_eq] at below
    exact ⟨settled', withOp typed (settled'.catalog_eq ▸ below.insertedInto built)⟩
  | deleted _ here pool txn ih => exact ⟨ih.1, withOp ih.2 ((ih.2 _ (List.mem_of_getElem? here)).deleted pool txn)⟩
  | call _ here call ih =>
    have answered := (ih.2 _ (List.mem_of_getElem? here)).answer ih.1 call
    exact ⟨answered.settled, withOp ih.2 answered.operator⟩
  | request _ request admitted same ih => exact ⟨ih.1.request admitted same, ih.2⟩

/-! ## Soundness -/

/-- What types promise of an operator: of the rows that it gives, of the values that it compares and of the rows that it
stores. -/
structure Operator.Sound (op : Operator) (store : Store) : Prop where
  gives : ∀ row, (op.next store).outcome = .ok (some row) → row.Of op.schema
  compares : ∀ (predicate : Predicate) (child : Operator) (out : RowBuffer), op = .filter predicate child out →
    predicate.Compares child.schema →
      (∀ row : Row, row.Of child.schema → predicate.Applies row) ∧
      ∀ failure, (op.openAll store).outcome = .error failure → failure.OfTypes →
        (child.openAll store).outcome = .error failure
  stores : ∀ (pool : PoolId) (txn : TxnId) (table : TableId) (done : Option Int32) (child : Operator) (out : RowBuffer),
    op = .insert pool txn table done child out →
      ∀ failure, (op.openAll store).outcome = .error failure → failure.OfTypes →
        (child.openAll store).outcome = .error failure

theorem Operator.WellTyped.sound {op : Operator} (h : op.WellTyped catalog) (settled : store.Settled catalog) :
    op.Sound store where
  gives _ given := h.of_next settled given
  compares predicate child out same compares := by
    subst same
    exact ⟨fun _ of => compares.applies of.types_eq,
      fun _ failed => h.1.of_openAll_filter_error settled compares failed⟩
  stores pool txn table done child out same := by
    subst same
    exact fun _ failed => h.of_openAll_insert_error settled failed

theorem Store.Lived.current {catalogs : List Catalog} (lived : store.Lived Page.Formed Row.Conforms catalogs)
    (constant : ∀ catalog ∈ catalogs, ∀ table file now, catalog.file table = .ok file →
      store.catalog.file table = .ok now → file.schema = now.schema) : store.Current := by
  intro pool id frame page now resident page_eq found'
  obtain ⟨page', page_eq', catalog, mem, file, found, is⟩ :=
    (lived.chronicled Page.lasting_formed).residents pool id frame resident
  cases page_eq.symm.trans page_eq'
  exact is.schema_eq.trans (constant catalog mem id.table file now found found')

/-- Operators are sound, and so is every operator below them, as long as the catalog is the one that there was when they
were built and the pages that were in memory then had the schemas of their tables. Before that the store may have been
used in any way. -/
theorem Serving.sound_part {catalogs : List Catalog} {start : Store} {ops : List Operator} {op part : Operator}
    (lived : start.Lived Page.Formed Row.Conforms catalogs) (current : start.Current)
    (serving : Serving start ops store) (mem : op ∈ ops) (below : part.Part op) : part.Sound store := by
  obtain ⟨settled, typed⟩ := serving.wellTyped (lived.settled current)
  exact ((typed op mem).part below).sound settled

/-! ## A table with one row -/

def Store.afterAll (store : Store) (requests : List StoreRequest) : Store :=
  requests.foldl (fun store request => request.run.after store) store

/-- A row was put in a new table. -/
def Store.small : Store := Store.afterAll (.ofDisk default)
  [.openFile "t" ⟨[⟨.int, none⟩]⟩ 9, .register smallFile "t" "", .addPool ⟨9, 1⟩,
    .ofPool ⟨0⟩ (.insert ⟨1⟩ smallFile.id (smallRow 1 none))]

theorem Catalog.schema_of_small {catalog : Catalog}
    (small : catalog = .empty ∨ catalog = Catalog.empty.register smallFile "t" "") {table : TableId} {file : TableFile}
    (found : catalog.file table = .ok file) : file.schema = smallFile.schema := by
  rcases small with rfl | rfl
  · cases found
  · rcases of_file_register found with ⟨-, rfl⟩ | before
    · rfl
    · cases before

set_option maxRecDepth 4000 in
theorem Store.lived_small :
    ∃ catalogs, Store.small.Lived Page.Formed Row.Conforms catalogs ∧ Store.small.Current := by
  have lived := ((((@Store.Lived.start Page.Formed Row.Conforms default).step
    (.openFile "t" ⟨[⟨.int, none⟩]⟩ 9) trivial).step (.register smallFile "t" "") trivial).step
      (.addPool ⟨9, 1⟩) trivial).step (.ofPool ⟨0⟩ (.insert ⟨1⟩ smallFile.id (smallRow 1 none)))
        (show (smallRow 1 none).Conforms from rfl)
  refine ⟨_, lived, lived.current fun catalog mem table file now found found' => ?_⟩
  have small : catalog = .empty ∨ catalog = Catalog.empty.register smallFile "t" "" := by
    simp only [List.mem_cons, List.not_mem_nil, or_false] at mem
    rcases mem with rfl | rfl | rfl | rfl | rfl
    · exact .inr rfl
    · exact .inr rfl
    · exact .inr rfl
    · exact .inl rfl
    · exact .inl rfl
  exact (Catalog.schema_of_small small found).trans (Catalog.schema_of_small (.inr rfl) found').symm

/-- A filter over a scan, the rows of which are stored in the table that they came from. -/
theorem Serving.sound_part_of_storing :
    ∃ (catalogs : List Catalog) (start store : Store) (op part : Operator) (row : Row),
      start.Lived Page.Formed Row.Conforms catalogs ∧ start.Current ∧ Serving start [op] store ∧ part.Part op ∧
        (part.next store).outcome = .ok (some row) ∧ row.Of part.schema := by
  obtain ⟨catalogs, lived, current⟩ := Store.lived_small
  let kept : Operator := (Operator.smallScan none).filtered ⟨0, .gt, .constant (.int 0)⟩
  let storing : Operator := .insert ⟨0⟩ ⟨1⟩ smallFile.id none kept (.ofRows Operator.countSchema [])
  have found : Store.small.catalog.file smallFile.id = .ok smallFile := by decide +kernel
  have named : Store.small.catalog.tableName smallFile.id = .ok "t" := by decide +kernel
  have schema_eq : Store.small.catalog.schema smallFile.id = .ok kept.schema := by decide +kernel
  have scanned : Operator.ofTable ⟨0⟩ smallFile.id none .small = .ok (Operator.smallScan none) .small :=
    Action.bind_ok (TableScan.plan_ok found named ⟨0⟩ none)
  have stored : kept.insertedInto ⟨0⟩ ⟨1⟩ smallFile.id .small = .ok storing .small :=
    Operator.insertedInto_ok schema_eq ⟨0⟩ ⟨1⟩
  have serving : Serving .small [(storing.answer .small .openAll).operator] (storing.answer .small .openAll).store :=
    .call (.insertedInto (.filtered (.ofTable .start scanned) (i := 0) rfl _) (i := 0) rfl stored) (i := 0) rfl .openAll
  have first : (storing.answer .small .openAll).operator.child?.map
      (fun part => (part.next (storing.answer .small .openAll).store).outcome) =
        some (.ok (some (smallRow 1 (smallFile.rowId 0 0)))) := by decide +kernel
  obtain ⟨part, child_eq, given⟩ := Option.map_eq_some_iff.mp first
  have below : part.Part (storing.answer .small .openAll).operator := .under child_eq .self
  have sound := sound_part lived current serving (List.mem_singleton_self _) below
  exact ⟨_, _, _, _, part, _, lived, current, serving, below, given, sound.gives _ given⟩

/-- The same file as one of another schema, in which the column has a name. -/
def renamedFile : TableFile := .opened ["t"] ⟨[⟨.int, some "w"⟩]⟩ 9 1

/-- The row was written to its file, and the table was replaced. -/
def Store.renamed : Store := Store.small.afterAll
  [.flushAll ⟨0⟩, .openFile "t" ⟨[⟨.int, some "w"⟩]⟩ 9, .register renamedFile "u" ""]

/-- The page of a table that was replaced is still in memory, and a scan gives its row as one of the old schema. -/
theorem Serving.not_sound_of_renamed :
    ∃ (catalogs : List Catalog) (store : Store) (op : Operator),
      Store.renamed.Lived Page.Formed Row.Conforms catalogs ∧ Serving .renamed [op] store ∧ ¬op.Sound store := by
  obtain ⟨catalogs, lived, -⟩ := Store.lived_small
  have lived' := ((lived.step (.flushAll ⟨0⟩) trivial).step (.openFile "t" ⟨[⟨.int, some "w"⟩]⟩ 9) trivial).step
    (.register renamedFile "u" "") trivial
  let scan : Operator := .scan ⟨renamedFile.id, "u", none, renamedFile.schema, .new renamedFile ⟨0⟩⟩
  have found : Store.renamed.catalog.file renamedFile.id = .ok renamedFile := by decide +kernel
  have named : Store.renamed.catalog.tableName renamedFile.id = .ok "u" := by decide +kernel
  have scanned : Operator.ofTable ⟨0⟩ renamedFile.id none .renamed = .ok scan .renamed :=
    Action.bind_ok (TableScan.plan_ok found named ⟨0⟩ none)
  have serving : Serving .renamed [(scan.answer .renamed .openAll).operator] (scan.answer .renamed .openAll).store :=
    .call (.ofTable .start scanned) (i := 0) rfl .openAll
  refine ⟨_, _, _, lived', serving, fun sound => ?_⟩
  have given : ((scan.answer .renamed .openAll).operator.next (scan.answer .renamed .openAll).store).outcome =
      .ok (some (smallRow 1 (smallFile.rowId 0 0))) := by decide +kernel
  exact absurd (sound.gives _ given).schema_eq (by decide +kernel)

end RowStore
