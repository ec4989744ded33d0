import RowStore.Proofs.Pool.Filled
import RowStore.Proofs.Pool.Places
import RowStore.Proofs.Query.Groups
import RowStore.Query.Operator

/-!
# What a query means

A query that only reads is made of filters and aggregations over given rows or over the scan of a table. What it gives
is said of the plain tables: a scan gives the rows in the order of their places, a filter those that satisfy its
predicate, and an aggregation one row for each group.
-/

namespace RowStore

/-! ## Predicates and scans -/

namespace Predicate

/-- The predicate can be asked of the row. -/
def Applies (predicate : Predicate) (row : Row) : Prop := ∃ kept, predicate.holds row = .ok kept

/-- The row satisfies the predicate. -/
def keeps (predicate : Predicate) (row : Row) : Bool :=
  match predicate.holds row with
  | .ok kept => kept
  | .error _ => false

end Predicate

namespace TableScan

variable {pool : PoolId} {table : TableId} {qualifier : Option String} {source : TableScan} {store store' : Store}

theorem plan_ok {file : TableFile} {name : String} (found : store.catalog.file table = .ok file)
    (named : store.catalog.tableName table = .ok name) (pool : PoolId) (qualifier : Option String) :
    plan pool table qualifier store =
      .ok ⟨table, name, qualifier, qualifier.elim file.schema file.schema.qualify, .new file pool⟩ store := by
  unfold plan
  rw [Action.bind_ok (Store.lookUp_ok found), Action.bind_ok (Store.lookUp_ok named)]
  cases qualifier <;> rfl

theorem of_plan (h : plan pool table qualifier store = .ok source store') :
    ∃ file name, store.catalog.file table = .ok file ∧
      source = ⟨table, name, qualifier, qualifier.elim file.schema file.schema.qualify, .new file pool⟩ := by
  obtain ⟨file, middle, found, h⟩ := Action.of_bind_ok h
  obtain ⟨name, middle', -, h⟩ := Action.of_bind_ok h
  cases h
  obtain ⟨found, rfl⟩ := Action.of_check_ok found
  refine ⟨file, name, found, ?_⟩
  cases qualifier <;> rfl

end TableScan

namespace Operator

/-! ## Queries that only read -/

/-- The query is made of filters and aggregations over given rows or over the scan of a registered table. It may have
been opened and read before. -/
inductive ReadsOnly (pool : PoolId) (store : Store) : Operator → Prop where
  | values {out : RowBuffer} (made : ∀ row ∈ out.rows, row.Made ∧ row.schema = out.schema) :
      ReadsOnly pool store (.values out)
  | scan {table : TableId} {qualifier : Option String} {planned : TableScan}
      (plan_eq : TableScan.plan pool table qualifier store = .ok planned store) {cursor : TableCursor}
      (pool_eq : cursor.pool = planned.cursor.pool) (file_eq : cursor.file = planned.cursor.file) :
      ReadsOnly pool store (.scan { planned with cursor })
  | filter {child : Operator} (below : ReadsOnly pool store child) (predicate : Predicate) (out : RowBuffer) :
      ReadsOnly pool store (.filter predicate child out)
  | aggregate {child : Operator} (below : ReadsOnly pool store child) {column : Nat} {group : Option Nat}
      {aggregate : Aggregate} {aggregation : Aggregation}
      (plan_eq : Aggregation.plan child.schema column group aggregate = .ok aggregation) (out : RowBuffer) :
      ReadsOnly pool store (.aggregate aggregation child out)

namespace ReadsOnly

variable {pool : PoolId} {store : Store} {child op : Operator}

theorem ofTable {table : TableId} {qualifier : Option String}
    (h : Operator.ofTable pool table qualifier store = .ok op store) : op.ReadsOnly pool store := by
  obtain ⟨source, middle, plan_eq, h⟩ := Action.of_bind_ok h
  cases h
  exact scan plan_eq rfl rfl

theorem filtered (below : child.ReadsOnly pool store) (predicate : Predicate) :
    (child.filtered predicate).ReadsOnly pool store := filter below predicate _

theorem aggregated (below : child.ReadsOnly pool store) {column : Nat} {group : Option Nat} {aggregate : Aggregate}
    (h : child.aggregated column group aggregate = .ok op) : op.ReadsOnly pool store := by
  obtain ⟨aggregation, plan_eq, h⟩ := of_bind_eq_ok h
  cases h
  exact ReadsOnly.aggregate below plan_eq _

end ReadsOnly

def smallScan (qualifier : Option String) : Operator :=
  .scan ⟨smallFile.id, "t", qualifier, qualifier.elim smallFile.schema smallFile.schema.qualify, .new smallFile ⟨0⟩⟩

theorem readsOnly_smallScan (qualifier : Option String) :
    (smallScan qualifier).ReadsOnly ⟨0⟩ PoolId.smallStore := by
  have found : PoolId.smallStore.catalog.file smallFile.id = .ok smallFile := by decide +kernel
  have named : PoolId.smallStore.catalog.tableName smallFile.id = .ok "t" := by decide +kernel
  exact .ofTable (Action.bind_ok (TableScan.plan_ok found named ⟨0⟩ qualifier))

/-! ## The rows that a query gives -/

/-- The query gives these rows of the plain tables. The rows of an aggregation can come in any order. No rows are given
where a predicate does not apply to a row, or a result is out of range. -/
def Gives (contents : Contents) : Operator → List Row → Prop
  | .values out, rows => rows = out.rows
  | .scan source, rows => rows = (contents source.table).rows.map source.present
  | .filter predicate child _, rows =>
    ∃ below, child.Gives contents below ∧ (∀ row ∈ below, predicate.Applies row) ∧ rows = below.filter predicate.keeps
  | .aggregate aggregation child _, rows => ∃ below, child.Gives contents below ∧ aggregation.Summarizes below rows
  | .insert .., _ | .delete .., _ => False

variable {contents : Contents} {op : Operator} {rows rows' : List Row}

/-- Nothing but the order is left open. -/
theorem Gives.perm (h : op.Gives contents rows) (h' : op.Gives contents rows') : rows.Perm rows' := by
  induction op generalizing rows rows' with
  | values out =>
    cases h
    cases h'
    exact .refl _
  | scan source =>
    cases h
    cases h'
    exact .refl _
  | filter predicate child out ih =>
    obtain ⟨below, gives, -, rfl⟩ := h
    obtain ⟨below', gives', -, rfl⟩ := h'
    exact (ih gives gives').filter _
  | aggregate aggregation child out ih =>
    obtain ⟨below, gives, summary⟩ := h
    obtain ⟨below', gives', summary'⟩ := h'
    exact summary.perm summary' (ih gives gives')
  | insert => exact h.elim
  | delete => exact h.elim

end Operator

/-! ## Typed rows -/

theorem Contents.Sound.typed {contents : Contents} {tables : Tables} (h : contents.Sound tables) {file : TableFile}
    (mem : file ∈ tables.files) {row : Row} (row_mem : row ∈ (contents file.id).rows) :
    row.Typed file.schema ∧ row.schema = file.schema := by
  obtain ⟨page, page_mem, row_mem⟩ := List.mem_flatMap.mp row_mem
  obtain ⟨number, here⟩ := List.mem_iff_getElem?.mp page_mem
  have stores := h file mem number page here
  obtain ⟨slot, -, slot_eq, -⟩ := stores.slot_of_mem row_mem
  obtain ⟨schema_eq, conforms, fits, -⟩ := stores.row slot row slot_eq
  exact ⟨⟨schema_eq ▸ conforms, fits⟩, schema_eq⟩

theorem Aggregation.Suits.typed_summary {aggregation : Aggregation} {input : Schema} (h : aggregation.Suits input)
    {row : Row} (typed : row.Typed input) (below : List Row) :
    (aggregation.summary below (aggregation.groupOf row)).Typed aggregation.schema := by
  obtain ⟨types_eq, fit_eq⟩ := h.typed_groupOf typed
  constructor
  · rw [summary, List.map_append, types_eq, h.types_eq]
    rfl
  · unfold Row.Fits
    rw [summary, List.map_append, fit_eq]
    rfl

theorem Operator.ReadsOnly.typed {pool : PoolId} {store : Store} {op : Operator} (h : op.ReadsOnly pool store)
    {tables : Tables} (found : ∀ table, store.catalog.file table = TableFile.among tables.files table)
    {contents : Contents} (sound : contents.Sound tables) {rows : List Row} (gives : op.Gives contents rows) :
    ∀ row ∈ rows, row.Typed op.schema := by
  induction h generalizing rows with
  | values made =>
    cases gives
    intro row mem
    obtain ⟨made, schema_eq⟩ := made row mem
    exact ⟨made.conforms.trans (congrArg Schema.types schema_eq), made.fits⟩
  | @scan table qualifier planned plan_eq cursor pool_eq file_eq =>
    obtain ⟨file, name, found_eq, planned_eq⟩ := TableScan.of_plan plan_eq
    subst planned_eq
    rw [found] at found_eq
    obtain ⟨mem, rfl⟩ := TableFile.mem_of_among found_eq
    cases gives
    intro row row_mem
    obtain ⟨stored, stored_mem, rfl⟩ := List.mem_map.mp row_mem
    obtain ⟨typed, -⟩ := sound.typed mem stored_mem
    cases qualifier with
    | none => exact typed
    | some qualifier => exact ⟨typed.1.trans (Schema.types_qualify ..).symm, typed.2⟩
  | filter below predicate out ih =>
    obtain ⟨under, gives, -, rfl⟩ := gives
    intro row mem
    exact ih gives row (List.mem_of_mem_filter mem)
  | aggregate below plan_eq out ih =>
    obtain ⟨under, gives, -, perm⟩ := gives
    intro row mem
    obtain ⟨group, group_mem, rfl⟩ := List.mem_map.mp (perm.mem_iff.mp mem)
    obtain ⟨member, member_mem, rfl⟩ := List.mem_map.mp (List.mem_dedup.mp group_mem)
    exact (Aggregation.suits_of_plan plan_eq).typed_summary (ih gives member member_mem) under

end RowStore
