import RowStore.Proofs.Pool.Additions
import RowStore.Proofs.Query.Counting

/-!
# Storing what a query selects

The rows are stored while the scan that selects them still goes on. A filter reads its rows before it gives one of them,
and a scan of another table never comes to a row that was stored. A scan of the same table comes to such a row where it
was stored on a page that is still ahead.
-/

namespace RowStore

theorem Catalog.file_of_schema {catalog : Catalog} {table : TableId} {schema : Schema}
    (h : catalog.schema table = .ok schema) : ∃ file, catalog.file table = .ok file ∧ file.schema = schema := by
  unfold Catalog.schema at h
  unfold Catalog.file
  cases found : catalog.table table with
  | error e =>
    rw [found] at h
    cases h
  | ok entry =>
    rw [found] at h
    cases h
    exact ⟨entry.file, rfl, rfl⟩

/-! ## Rows of a selection -/

theorem TableScan.made_present {pool : PoolId} {table : TableId} {qualifier : Option String} {planned : TableScan}
    {store : Store} (plan_eq : plan pool table qualifier store = .ok planned store) {file : TableFile}
    (found : store.catalog.file table = .ok file) {row : Row} (typed : row.Typed file.schema)
    (schema_eq : row.schema = file.schema) :
    (planned.present row).Made ∧ (planned.present row).schema = planned.schema := by
  obtain ⟨file', name, found', rfl⟩ := of_plan plan_eq
  cases found.symm.trans found'
  cases qualifier with
  | none => exact ⟨.of_fits (typed.1.trans (congrArg Schema.types schema_eq.symm)) typed.2, schema_eq⟩
  | some qualifier => exact ⟨.of_fits (typed.1.trans (Schema.types_qualify ..).symm) typed.2, rfl⟩

namespace Operator

variable {pool : PoolId} {tables : Tables} {capacity : Nat} {contents : Contents} {store store' : Store}
  {file : TableFile} {rows given rest : List Row} {row : Row} {op insert : Operator} {table target : TableId}
  {txn : TxnId}

theorem SelectsFrom.made (selects : op.SelectsFrom table) (query : op.ReadsOnly pool store)
    (found : ∀ table, store.catalog.file table = TableFile.among tables.files table) (sound : contents.Sound tables)
    (gives : op.Gives contents rows) : ∀ row ∈ rows, row.Made ∧ row.schema = op.schema := by
  induction query generalizing rows with
  | @scan table qualifier planned plan_eq cursor pool_eq file_eq =>
    obtain ⟨file, name, found_eq, planned_eq⟩ := TableScan.of_plan plan_eq
    cases gives
    intro row mem
    obtain ⟨stored, stored_mem, rfl⟩ := List.mem_map.mp mem
    obtain ⟨file_mem, rfl⟩ := TableFile.mem_of_among ((found table).symm.trans found_eq)
    rw [planned_eq] at stored_mem
    obtain ⟨typed, schema_eq⟩ := sound.typed file_mem stored_mem
    exact TableScan.made_present plan_eq found_eq typed schema_eq
  | filter below predicate out ih =>
    obtain ⟨under, gives, -, rfl⟩ := gives
    intro row mem
    exact ih selects gives row (List.mem_of_mem_filter mem)
  | values | aggregate => exact selects.elim

theorem of_insertedInto (h : op.insertedInto pool txn target store = .ok insert store') :
    insert = .insert pool txn target none op (.ofRows countSchema []) ∧
      ∃ file, store.catalog.file target = .ok file ∧ file.schema = op.schema := by
  obtain ⟨schema, middle, found, planned⟩ := Action.of_bind_ok h
  obtain ⟨found, rfl⟩ := Action.of_check_ok found
  by_cases same : op.schema = schema
  · simp only [same, ne_eq, not_true, ite_false] at planned
    cases planned
    exact ⟨rfl, same ▸ Catalog.file_of_schema found⟩
  · simp only [ne_eq, same, not_false_eq_true, ite_true] at planned
    cases planned

theorem insertedInto_ok (found : store.catalog.schema target = .ok op.schema) (pool : PoolId) (txn : TxnId) :
    op.insertedInto pool txn target store = .ok (.insert pool txn target none op (.ofRows countSchema [])) store := by
  unfold insertedInto
  rw [Action.bind_ok (Store.lookUp_ok found)]
  simp only [ne_eq, not_true, ite_false]
  rfl

/-! ## Rows that are read first -/

/-- The query does not come to a row that is stored. A scan of the table itself has to find room, for the rows that it
gave, on the pages that it left behind. -/
def ReadsFirst (contents : Contents) (target : TableId) : Operator → Prop
  | .scan source => source.table = target → (contents target).Balanced
  | .values _ | .filter .. | .aggregate .. | .insert .. | .delete .. => True

theorem ReadsFirst.openAll (h : op.ReadsFirst contents target) (selects : op.SelectsFrom table) (store : Store) :
    (op.openAll store).operator.ReadsFirst contents target := by
  cases op with
  | scan source => exact h
  | filter predicate child out =>
    unfold Operator.openAll Run.collect
    dsimp only
    split <;> trivial
  | values | aggregate | insert | delete => exact selects.elim

theorem ReadsFirst.page_eq {source : TableScan} (first : (scan source).ReadsFirst contents file.id)
    (mem : file ∈ tables.files) (schemas : ∀ row ∈ given, row.schema = file.schema) {n : Nat}
    (le : given.length + (PlainTable.rows ((contents source.table).drop n)).length ≤
      (contents source.table).rows.length) :
    (contents.insertAll tables.files file.id given source.table)[n]? = (contents source.table)[n]? := by
  rw [Contents.insertAll_eq mem schemas]
  by_cases same : source.table = file.id
  · have balanced := first same n
    rw [same] at le ⊢
    rw [Contents.setTable_self]
    have split : (contents file.id).rows.length =
        (PlainTable.rows ((contents file.id).take n)).length +
          (PlainTable.rows ((contents file.id).drop n)).length := by
      rw [← List.length_append, ← PlainTable.rows_append, List.take_append_drop]
    -- The rows that were stored so far found room on the pages that the scan has left behind.
    have spare : given.length ≤ PlainTable.spare ((contents file.id).take n) := by omega
    have drop_eq := TableFile.addAll_of_spare (tables.opened file mem) spare
    have zero_eq := congrArg (fun table : PlainTable => table[0]?) drop_eq
    simpa only [List.getElem?_drop, Nat.add_zero] using zero_eq
  · rw [Contents.setTable_of_ne _ _ same]

theorem Offers.store_ok (offers : op.Offers pool tables.files contents rows) (mem : file ∈ tables.files)
    (first : op.ReadsFirst contents file.id) (selects : op.SelectsFrom table)
    (le : rows.length ≤ (contents table).rows.length) (made : ∀ row ∈ rows, row.Made ∧ row.schema = file.schema)
    (room : contents.Fit tables.files) (fit : (contents.insertAll tables.files file.id rows).Fit tables.files)
    (txn : TxnId) (shows : pool.Shows tables capacity contents store) :
    Leads (fun (n : Int32) store =>
        n.toInt = rows.length ∧ pool.Shows tables capacity (contents.insertAll tables.files file.id rows) store)
      (fun failure _ => failure = .aborted .wordOverflow ∧ Int32.maxValue.toInt < rows.length)
      (op.feed (Operator.store pool txn file.id) 0 store) := by
  have schemas : ∀ row ∈ rows, row.schema = file.schema := fun row row_mem => (made row row_mem).2
  have fits : ∀ {given rest}, given ++ rest = rows →
      (∀ row ∈ given, row.schema = file.schema) ∧ (contents.insertAll tables.files file.id given).Fit tables.files := by
    rintro given rest rfl
    have schemas' : ∀ row ∈ given, row.schema = file.schema :=
      fun row row_mem => schemas row (List.mem_append_left _ row_mem)
    refine ⟨schemas', fit.insertAll mem schemas schemas' ?_⟩
    rw [List.length_append]
    exact Nat.le_add_right _ _
  let At (given : List Row) (store : Store) : Prop :=
    pool.Shows tables capacity (contents.insertAll tables.files file.id given) store
  have changed : ∀ {given row rest store}, given ++ row :: rest = rows → At given store →
      ∃ store', discard (pool.insert txn file.id row) store = .ok () store' ∧ At (given ++ [row]) store' := by
    intro given row rest store sum_eq here
    have sum_eq' : (given ++ [row]) ++ rest = rows := by rw [List.append_assoc]; exact sum_eq
    obtain ⟨row_made, schema_eq⟩ := made row (sum_eq ▸ List.mem_append_right _ List.mem_cons_self)
    exact PoolId.Shows.insertAll_ok mem here txn row_made schema_eq (fits sum_eq).2 (fits sum_eq').2
  have ahead : ∀ source, op = .scan source → ∀ {n given store}, n < UInt32.size →
      given ++ (PlainTable.rows ((contents source.table).drop n)).map source.present = rows → At given store →
      ∃ store', TableCursor.pageRows? pool source.cursor.file (UInt32.ofNat n) store =
          .ok ((contents source.table)[n]?.map PlainPage.rows) store' ∧ At given store' := by
    rintro source rfl n given store lt sum_eq here
    obtain ⟨-, source_mem, table_eq, -⟩ := offers
    obtain ⟨schemas', room'⟩ := fits sum_eq
    obtain ⟨store', rows_eq, here'⟩ := PoolId.Shows.pageRows?_ok here source_mem (room' _ source_mem).1 lt
    have le' : given.length + (PlainTable.rows ((contents source.table).drop n)).length ≤
        (contents source.table).rows.length := by
      have selects : source.table = table := selects
      rw [← sum_eq, List.length_append, List.length_map, ← selects] at le
      exact le
    rw [← table_eq, first.page_eq mem schemas' le'] at rows_eq
    exact ⟨store', rows_eq, here'⟩
  exact offers.feed_count (fun other other_mem => (room other other_mem).1) changed ahead shows

/-! ## Rows that are read again -/

/-- How far a scan has come that has the rows it gives stored in its own table. It gave `given`, has the rows `rest` of
the pages before `n` left, and gave no fewer rows than these pages had at first. It gave and has left just as many only
if they all found room there. -/
structure Rereads (pool : PoolId) (tables : Tables) (capacity : Nat) (contents : Contents) (file : TableFile) (n : Nat)
    (given rest : List Row) (store : Store) : Prop where
  shows : pool.Shows tables capacity (contents.insertAll tables.files file.id given) store
  schemas : ∀ row ∈ given, row.schema = file.schema
  typed : ∀ row ∈ rest, row.Typed file.schema ∧ row.schema = file.schema
  inside : n ≤ (contents file.id).length
  all : (PlainTable.rows ((contents file.id).take n)).length ≤ given.length + rest.length
  balanced : given.length + rest.length = (PlainTable.rows ((contents file.id).take n)).length →
    given.length ≤ PlainTable.spare ((contents file.id).take n) →
      ∀ m < n, (PlainTable.rows ((contents file.id).take m)).length ≤ PlainTable.spare ((contents file.id).take m)

namespace Rereads

variable {n : Nat}

theorem store_ok (h : Rereads pool tables capacity contents file n given (row :: rest) store)
    (mem : file ∈ tables.files) {stored : Row} (made : stored.Made) (schema_eq : stored.schema = file.schema)
    (room : (contents.insertAll tables.files file.id given).Fit tables.files)
    (fit : (contents.insertAll tables.files file.id (given ++ [stored])).Fit tables.files) (txn : TxnId) :
    ∃ store', discard (pool.insert txn file.id stored) store = .ok () store' ∧
      Rereads pool tables capacity contents file n (given ++ [stored]) rest store' := by
  obtain ⟨store', run, shows'⟩ := PoolId.Shows.insertAll_ok mem h.shows txn made schema_eq room fit
  have length_eq : (given ++ [stored]).length + rest.length = given.length + (row :: rest).length := by
    simp only [List.length_append, List.length_cons, List.length_nil]
    omega
  have schemas : ∀ other ∈ given ++ [stored], other.schema = file.schema :=
    List.forall_mem_append.mpr ⟨h.schemas, List.forall_mem_singleton.mpr schema_eq⟩
  refine ⟨store', run, shows', schemas, fun other other_mem => h.typed other (List.mem_cons_of_mem _ other_mem),
    h.inside, length_eq ▸ h.all, fun even spare => h.balanced (length_eq ▸ even) ?_⟩
  rw [List.length_append] at spare
  omega

theorem of_none (h : Rereads pool tables capacity contents file n given [] store) (mem : file ∈ tables.files)
    (none : (contents.insertAll tables.files file.id given file.id)[n]? = none) :
    (contents file.id).rows.length ≤ given.length ∧
      (given.length = (contents file.id).rows.length → (contents file.id).Balanced) := by
  rw [Contents.insertAll_eq mem h.schemas, Contents.setTable_self, List.getElem?_eq_none_iff] at none
  have opened := tables.opened file mem
  have grown := file.length_le_addAll opened (contents file.id) given
  have inside := h.inside
  have behind := TableFile.length_rows_addAll opened h.inside given
  have n_eq : n = (contents file.id).length := by omega
  have all := h.all
  have balanced := h.balanced
  rw [List.drop_of_length_le none, n_eq, List.drop_length, List.take_length] at behind
  rw [n_eq, List.take_length, List.length_nil, Nat.add_zero] at all balanced
  have room : given.length ≤ PlainTable.spare (contents file.id) := by
    have zero : (PlainTable.rows []).length = 0 := rfl
    omega
  refine ⟨all, fun even m => ?_⟩
  by_cases lt : m < (contents file.id).length
  · exact balanced even room m lt
  · rw [List.take_of_length_le (Nat.le_of_not_lt lt), ← even]
    exact room

theorem of_some (h : Rereads pool tables capacity contents file n given [] store) (mem : file ∈ tables.files)
    {page : PlainPage} (here : (contents.insertAll tables.files file.id given file.id)[n]? = some page)
    (shows' : pool.Shows tables capacity (contents.insertAll tables.files file.id given) store') :
    (contents file.id).rows.length < given.length + page.rows.length ∨
      Rereads pool tables capacity contents file (n + 1) given page.rows store' := by
  have opened := tables.opened file mem
  have typed : ∀ row ∈ page.rows, row.Typed file.schema ∧ row.schema = file.schema := by
    intro row row_mem
    exact shows'.sound.typed mem (List.mem_flatMap.mpr ⟨page, List.mem_of_getElem? here, row_mem⟩)
  rw [Contents.insertAll_eq mem h.schemas, Contents.setTable_self] at here
  have all := h.all
  rw [List.length_nil, Nat.add_zero] at all
  rcases Nat.lt_or_eq_of_le h.inside with lt | rfl
  · have first_eq : (contents file.id)[n]? = some (contents file.id)[n] := List.getElem?_eq_getElem lt
    have behind := TableFile.length_rows_addAll opened h.inside given
    have inside : n + 1 ≤ (contents file.id).length := lt
    have behind' := TableFile.length_rows_addAll opened inside given
    have mono := PlainTable.spare_take_mono (contents file.id) (Nat.le_add_right n 1)
    rw [PlainTable.rows_drop here, PlainTable.rows_drop first_eq, List.length_append, List.length_append] at behind
    have take_eq := congrArg List.length (PlainTable.rows_take_succ first_eq)
    rw [List.length_append] at take_eq
    refine .inr ⟨shows', h.schemas, typed, inside, by omega, fun even spare m m_lt => ?_⟩
    -- No row was stored on the page, so what was given so far found room before it.
    have even' : given.length = (PlainTable.rows ((contents file.id).take n)).length := by omega
    have spare' : given.length ≤ PlainTable.spare ((contents file.id).take n) := by omega
    rcases Nat.lt_succ_iff_lt_or_eq.mp m_lt with before | rfl
    · exact h.balanced even' spare' m before
    · exact even' ▸ spare'
  · rw [List.take_length] at all
    have none_yet : ∀ m page, (contents file.id).length ≤ m → (contents file.id)[m]? = some page →
        0 < page.rows.length := fun m page le there =>
      absurd (List.getElem?_eq_some_iff.mp there).1 (Nat.not_lt.mpr le)
    have occupied := TableFile.addAll_occupied opened none_yet given _ page (Nat.le_refl _) here
    exact .inl (by omega)

end Rereads

theorem store_counts (pool : PoolId) (txn : TxnId) (target : TableId) (n : Int32) (row : Row) (store : Store) :
    Leads (fun (n' : Int32) _ => n'.toInt = n.toInt + 1) (fun _ _ => True)
      (Operator.store pool txn target n row store) := by
  unfold Operator.store
  cases run : discard (pool.insert txn target row) store with
  | error failure store' =>
    rw [Action.bind_error run]
    trivial
  | ok _ store' =>
    rw [Action.bind_ok run]
    exact (countOn_leads n store').mono (fun _ _ counted => counted.2) fun _ _ _ => trivial

/-- A scan that has the rows it gives stored in its own table gives each row of the table, and no others only if there
was room for them on the pages that it left behind. -/
theorem Rereads.feed_leads {source : TableScan} (mem : file ∈ tables.files) (pool_eq : source.cursor.pool = pool)
    (file_eq : source.cursor.file = file) (isOpen : source.cursor.isOpen = true)
    (present : ∀ row, row.Typed file.schema → row.schema = file.schema →
      (source.present row).Made ∧ (source.present row).schema = file.schema)
    (fits : ∀ given, (∀ row ∈ given, row.schema = file.schema) → given.length ≤ (contents file.id).rows.length →
      (contents.insertAll tables.files file.id given).Fit tables.files) (txn : TxnId)
    (start : Rereads pool tables capacity contents file source.cursor.nextPage.toNat []
      (source.cursor.peeked.toList ++ source.cursor.current) store) :
    Leads (fun (n : Int32) _ => ((contents file.id).rows.length : Int) ≤ n.toInt ∧
        (n.toInt = (contents file.id).rows.length → (contents file.id).Balanced))
      (fun _ _ => True) ((scan source).feed (Operator.store pool txn file.id) 0 store) := by
  -- Once more rows were given than the table had at first, nothing has to be known of the rest of the run.
  let At (n : Nat) (rest : List Row) (count : Int32) (store : Store) : Prop :=
    ((contents file.id).rows.length : Int) < count.toInt + rest.length ∨
      ∃ given, count.toInt = given.length ∧ Rereads pool tables capacity contents file n given rest store
  let done (count : Int32) (_ : Store) : Prop := ((contents file.id).rows.length : Int) ≤ count.toInt ∧
    (count.toInt = (contents file.id).rows.length → (contents file.id).Balanced)
  have stepped : ∀ {n row rest count store}, At n (row :: rest) count store →
      Leads (At n rest) (fun _ _ => True)
        (Operator.store pool txn file.id count (source.present row) store) := by
    intro n row rest count store here
    by_cases beyond : ((contents file.id).rows.length : Int) < count.toInt + (row :: rest).length
    · rw [List.length_cons] at beyond
      refine (store_counts pool txn file.id count (source.present row) store).mono
        (fun count' store' count_eq => .inl ?_) fun _ _ _ => trivial
      omega
    · obtain ⟨given, count_eq, rereads⟩ := here.resolve_left beyond
      obtain ⟨typed, schema_eq⟩ := rereads.typed row List.mem_cons_self
      obtain ⟨made, schema_eq'⟩ := present row typed schema_eq
      have schemas' : ∀ other ∈ given ++ [source.present row], other.schema = file.schema :=
        List.forall_mem_append.mpr ⟨rereads.schemas, List.forall_mem_singleton.mpr schema_eq'⟩
      rw [List.length_cons] at beyond
      have le : (given ++ [source.present row]).length ≤ (contents file.id).rows.length := by
        rw [List.length_append, List.length_singleton]
        omega
      have le' : given.length ≤ (contents file.id).rows.length := by omega
      obtain ⟨store', run, rereads'⟩ :=
        rereads.store_ok mem made schema_eq' (fits given rereads.schemas le') (fits _ schemas' le) txn
      unfold Operator.store
      rw [Action.bind_ok run]
      refine (countOn_leads count store').mono ?_ fun _ _ _ => trivial
      rintro count' _ ⟨rfl, next_eq⟩
      refine .inr ⟨_, ?_, rereads'⟩
      rw [List.length_append, next_eq, count_eq]
      rfl
  have turns : ∀ {n count store}, n < UInt32.size → At n [] count store →
      Leads (fun rows? store => rows?.elim (done count store) fun rows => At (n + 1) rows count store)
        (fun _ _ => True) (TableCursor.pageRows? pool file (UInt32.ofNat n) store) := by
    intro n count store lt here
    by_cases beyond : ((contents file.id).rows.length : Int) < count.toInt
    · cases run : TableCursor.pageRows? pool file (UInt32.ofNat n) store with
      | error failure store' => trivial
      | ok rows? store' =>
        cases rows? with
        | none => exact ⟨Int.le_of_lt beyond, fun same => absurd same.symm (Int.ne_of_lt beyond)⟩
        | some rows => exact .inl (Int.lt_of_lt_of_le beyond (Int.le_add_of_nonneg_right (Int.natCast_nonneg _)))
    · obtain ⟨given, count_eq, rereads⟩ := here.resolve_left (by simpa using beyond)
      have le : given.length ≤ (contents file.id).rows.length := by omega
      obtain ⟨store', run, shows'⟩ := rereads.shows.pageRows?_ok mem (fits given rereads.schemas le file mem).1 lt
      rw [run]
      cases here : (contents.insertAll tables.files file.id given file.id)[n]? with
      | none =>
        obtain ⟨all, balanced⟩ := rereads.of_none mem here
        exact ⟨by omega, fun even => balanced (by omega)⟩
      | some page =>
        rcases rereads.of_some mem here shows' with beyond | rereads'
        · exact .inl (by omega)
        · exact .inr ⟨given, count_eq, rereads'⟩
  have last : ∀ {count store}, At UInt32.size [] count store → done count store := by
    intro count store here
    have room := (fits [] (fun _ mem => absurd mem List.not_mem_nil) (Nat.zero_le _) file mem).1
    rcases here with beyond | ⟨given, count_eq, rereads⟩
    · rw [List.length_nil] at beyond
      exact ⟨by omega, fun same => by omega⟩
    · exact absurd rereads.inside (Nat.not_le.mpr room)
  have begun : At source.cursor.nextPage.toNat (source.cursor.peeked.toList ++ source.cursor.current) 0 store :=
    .inr ⟨[], rfl, start⟩
  exact feed_scan_leads (TableCursor.feed_leads @stepped @turns @last source.cursor isOpen pool_eq file_eq begun)

theorem ReadsOnly.stores_again {source : TableScan} (query : (Operator.scan source).ReadsOnly pool store)
    (shows : pool.Shows tables capacity contents store) (mem : file ∈ tables.files) (same : source.table = file.id)
    (schema_eq : source.schema = file.schema)
    (fits : ∀ given, (∀ row ∈ given, row.schema = file.schema) → given.length ≤ (contents file.id).rows.length →
      (contents.insertAll tables.files file.id given).Fit tables.files) (txn : TxnId) :
    Leads (fun (n : Int32) _ => ((contents file.id).rows.length : Int) ≤ n.toInt ∧
        (n.toInt = (contents file.id).rows.length → (contents file.id).Balanced))
      (fun _ _ => True)
      (((Operator.scan source).openAll store).operator.feed (Operator.store pool txn file.id) 0 store) := by
  cases query with
  | @scan table qualifier planned plan_eq cursor pool_eq file_eq =>
    obtain ⟨file', name, found, planned_eq⟩ := TableScan.of_plan plan_eq
    have table_eq : table = file.id := (congrArg TableScan.table planned_eq).symm.trans same
    subst table_eq
    have found' := (shows.lookUp_eq file.id).trans (tables.among_eq mem)
    cases found.symm.trans found'
    let source : TableScan := { planned with cursor := cursor.opened }
    have present : ∀ row, row.Typed file.schema → row.schema = file.schema →
        (source.present row).Made ∧ (source.present row).schema = file.schema := by
      intro row typed row_eq
      obtain ⟨made, present_eq⟩ := TableScan.made_present plan_eq found typed row_eq
      exact ⟨made, present_eq.trans schema_eq⟩
    have pool_eq' : source.cursor.pool = pool := pool_eq.trans (congrArg (fun scan => scan.cursor.pool) planned_eq)
    have file_eq' : source.cursor.file = file := file_eq.trans (congrArg (fun scan => scan.cursor.file) planned_eq)
    have start : Rereads pool tables capacity contents file 0 [] [] store :=
      ⟨shows, fun _ row_mem => absurd row_mem List.not_mem_nil, fun _ row_mem => absurd row_mem List.not_mem_nil,
        Nat.zero_le _, Nat.le_refl _, fun _ _ _ lt => absurd lt (Nat.not_lt_zero _)⟩
    exact Rereads.feed_leads mem pool_eq' file_eq' rfl present fits txn start

/-! ## Storing all rows -/

section

variable (query : op.ReadsOnly pool store) (gives : op.Gives contents rows) (mem : file ∈ tables.files)
  (made : ∀ row ∈ rows, row.Made ∧ row.schema = file.schema)
  (fit : (contents.insertAll tables.files file.id rows).Fit tables.files)
  (shows : pool.Shows tables capacity contents store) (txn : TxnId) (out : RowBuffer)

include query gives mem made fit shows

theorem ReadsFirst.insert_ok (first : op.ReadsFirst contents file.id) (selects : op.SelectsFrom table)
    (room : contents.Fit tables.files) (few : rows.length ≤ Int32.maxValue.toInt) :
    ((Operator.insert pool txn file.id none op out).openAll store).Counts rows.length ∧
      pool.Answers tables.files (contents.insertAll tables.files file.id rows)
        ((Operator.insert pool txn file.id none op out).openAll store).store := by
  have small : ∀ file ∈ tables.files, (contents file.id).length < UInt32.size := fun file mem => (room file mem).1
  unfold Operator.openAll
  dsimp only
  obtain ⟨shows', ⟨rows', gives', opened, offers⟩ | ⟨-, none⟩⟩ :=
    query.opens shows.lookUp_eq shows.sound (PoolId.Shows.serves_all small) shows
  · cases selects.unique gives gives'
    have le : rows.length ≤ (contents table).rows.length := by
      have le := (selects.sublist gives).length_le
      rwa [List.length_map, List.length_map] at le
    have fed := offers.store_ok mem (first.openAll selects store) (selects.openAll store) le made room fit txn shows'
    rcases Run.feed_leads opened fed with ⟨count, fed, count_eq, shows''⟩ | ⟨failure, -, -, full⟩
    · refine ⟨Run.counts_inserted fed count_eq .., ?_⟩
      rw [Run.collectCount_ok fed]
      exact shows''.answers
    · exact absurd few (Int.not_le.mpr full)
  · exact absurd gives (none rows)

theorem ReadsOnly.insert_again (again : ¬op.ReadsFirst contents file.id) (schema_eq : op.schema = file.schema) {n : Nat}
    (counts : ((Operator.insert pool txn file.id none op out).openAll store).Counts n) : rows.length < n := by
  obtain ⟨source, rfl⟩ : ∃ source, op = .scan source := by
    cases op with
    | scan source => exact ⟨source, rfl⟩
    | _ => exact absurd trivial again
  obtain ⟨same, unbalanced⟩ := Classical.not_imp.mp again
  have rows_eq : rows.length = (contents file.id).rows.length := by
    have rows_eq := congrArg List.length gives
    rwa [List.length_map, same] at rows_eq
  have fits : ∀ given, (∀ row ∈ given, row.schema = file.schema) → given.length ≤ (contents file.id).rows.length →
      (contents.insertAll tables.files file.id given).Fit tables.files := fun given schemas le =>
    fit.insertAll mem (fun row row_mem => (made row row_mem).2) schemas (rows_eq ▸ le)
  have fed := query.stores_again shows mem same schema_eq fits txn
  unfold Operator.openAll at counts
  dsimp only at counts
  rcases Run.feed_leads rfl fed with ⟨count, fed, all, balanced⟩ | ⟨failure, fed, -⟩
  · obtain ⟨k, count_eq⟩ := Int.eq_ofNat_of_zero_le (Int.le_trans (Int.natCast_nonneg _) all)
    cases counts.unique (Run.counts_inserted fed count_eq ..)
    have ne : n ≠ (contents file.id).rows.length := fun even => unbalanced (balanced (by omega))
    omega
  · rw [Run.collectCount_error fed] at counts
    cases counts.1

end

/-- A query that selects rows of a table has them stored in a table that has room for them. If the rows are read first,
they are counted, and each of them is stored once. Otherwise more rows than these are stored, or opening it fails. -/
theorem openAll_insertedInto {files : List TableFile} (filled : pool.Filled files contents store)
    (query : op.ReadsOnly pool store) (selects : op.SelectsFrom table)
    (planned : op.insertedInto pool txn target store = .ok insert store) (gives : op.Gives contents rows)
    (fit : (contents.insertAll files target rows).Fit files) (few : rows.length ≤ Int32.maxValue.toInt) {run : Run Unit}
    (run_eq : insert.openAll store = run) :
    (op.ReadsFirst contents target →
        run.Counts rows.length ∧ pool.Answers files (contents.insertAll files target rows) run.store) ∧
      (¬op.ReadsFirst contents target → ∀ n, run.Counts n → rows.length < n) := by
  subst run_eq
  have room := filled.fit
  obtain ⟨tables, capacity, rfl, shows⟩ := filled.shows
  obtain ⟨rfl, file, found, schema_eq⟩ := of_insertedInto planned
  obtain ⟨mem, rfl⟩ := TableFile.mem_of_among ((shows.lookUp_eq target).symm.trans found)
  have made : ∀ row ∈ rows, row.Made ∧ row.schema = file.schema := by
    intro row row_mem
    rw [schema_eq]
    exact selects.made query shows.lookUp_eq shows.sound gives row row_mem
  constructor
  · intro first
    exact first.insert_ok query gives mem made fit shows txn _ selects room few
  · intro again n counts
    exact query.insert_again gives mem made fit shows txn _ again schema_eq.symm counts

end Operator

/-! ## A page with one empty slot -/

def roomyFile : TableFile := .opened ["t"] ⟨[⟨.int, none⟩]⟩ 13 0

/-- Two rows are stored on a page that has a slot for a third. -/
def PoolId.roomyInserts : List PoolCall :=
  [.insert ⟨1⟩ roomyFile.id (smallRow 1 none), .insert ⟨1⟩ roomyFile.id (smallRow 2 none)]

def PoolId.roomyContents : Contents := (Contents.run [roomyFile] (fun _ => []) roomyInserts).2

def PoolId.roomyStore : Store :=
  (PoolId.run ⟨0⟩ roomyInserts ((Store.setUp [{ smallPlan with pageSize := 13 }] ⟨13, 2⟩).after (.ofDisk default))).2

theorem PoolId.filled_roomy : PoolId.Filled ⟨0⟩ [roomyFile] roomyContents roomyStore := by
  have setUp : Store.setUp [{ smallPlan with pageSize := 13 }] ⟨13, 2⟩ (.ofDisk default) =
      .ok ([roomyFile], ⟨0⟩) ((Store.setUp [{ smallPlan with pageSize := 13 }] ⟨13, 2⟩).after (.ofDisk default)) := rfl
  refine .intro setUp (List.nodup_singleton _) (List.nodup_singleton _) ?stored ?sound ?made ?fit
  case stored =>
    intro file mem
    cases List.mem_singleton.mp mem
    exact ⟨.empty, rfl, rfl⟩
  case sound =>
    intro file mem number rows here
    cases here
  case made => simp [roomyInserts, PoolCall.Made, made_smallRow]
  case fit =>
    intro file mem
    cases List.mem_singleton.mp mem
    exact ⟨by decide +kernel, by decide +kernel⟩

namespace Operator

def roomyScan : Operator := .scan ⟨roomyFile.id, "t", none, roomyFile.schema, .new roomyFile ⟨0⟩⟩

theorem readsOnly_roomyScan : roomyScan.ReadsOnly ⟨0⟩ PoolId.roomyStore := by
  have found : PoolId.roomyStore.catalog.file roomyFile.id = .ok roomyFile := by decide +kernel
  have named : PoolId.roomyStore.catalog.tableName roomyFile.id = .ok "t" := by decide +kernel
  exact .scan (TableScan.plan_ok found named ⟨0⟩ none) rfl rfl

def roomyRows : List Row := (PoolId.roomyContents roomyFile.id).rows

/-- The second of two rows finds no room on the page that the scan has left behind. So it is stored where the scan still
comes to it, and three rows are counted. Below a filter that keeps all rows there are two. -/
theorem openAll_insertedInto_of_scan :
    ∃ again first : Operator,
      roomyScan.insertedInto ⟨0⟩ ⟨1⟩ roomyFile.id PoolId.roomyStore = .ok again PoolId.roomyStore ∧
      (roomyScan.filtered ⟨0, .gt, .constant (.int 0)⟩).insertedInto ⟨0⟩ ⟨1⟩ roomyFile.id PoolId.roomyStore =
        .ok first PoolId.roomyStore ∧
      roomyRows.length = 2 ∧ (∀ n, (again.openAll PoolId.roomyStore).Counts n → 2 < n) ∧
      (again.openAll PoolId.roomyStore).Counts 3 ∧ (first.openAll PoolId.roomyStore).Counts 2 := by
  have found : PoolId.roomyStore.catalog.schema roomyFile.id = .ok roomyFile.schema := by decide +kernel
  have two : roomyRows.length = 2 := by decide +kernel
  have fit : (PoolId.roomyContents.insertAll [roomyFile] roomyFile.id roomyRows).Fit [roomyFile] := by
    intro file mem
    cases List.mem_singleton.mp mem
    exact ⟨by decide +kernel, by decide +kernel⟩
  have few : roomyRows.length ≤ Int32.maxValue.toInt := by decide +kernel
  let above : Predicate := ⟨0, .gt, .constant (.int 0)⟩
  have kept : ∀ row ∈ roomyRows, above.holds row = .ok true := by decide +kernel
  have gives : roomyScan.Gives PoolId.roomyContents roomyRows := (List.map_id _).symm
  have gives' : (roomyScan.filtered above).Gives PoolId.roomyContents roomyRows :=
    ⟨_, gives, fun row mem => ⟨true, kept row mem⟩,
      (List.filter_eq_self.mpr fun row mem => by rw [Predicate.keeps, kept row mem]).symm⟩
  have planned := insertedInto_ok (show _ = Except.ok roomyScan.schema from found) ⟨0⟩ ⟨1⟩
  have planned' := insertedInto_ok (show _ = Except.ok (roomyScan.filtered above).schema from found) ⟨0⟩ ⟨1⟩
  obtain ⟨-, more⟩ := openAll_insertedInto PoolId.filled_roomy readsOnly_roomyScan rfl planned gives fit few rfl
  obtain ⟨same, -⟩ := openAll_insertedInto PoolId.filled_roomy (readsOnly_roomyScan.filtered above) rfl planned' gives'
    fit few rfl
  refine ⟨_, _, planned, planned', two, ?_, ?_, two ▸ (same trivial).1⟩
  · exact fun n counts => two ▸ more (fun first => absurd (first rfl 1) (by decide +kernel)) n counts
  · have fed :
        ((roomyScan.openAll PoolId.roomyStore).feed (Operator.store ⟨0⟩ ⟨1⟩ roomyFile.id) 0).outcome = .ok 3 := by
      decide +kernel
    have counted : ∀ {store : Store} {out : RowBuffer},
        ((roomyScan.openAll store).feed (Operator.store ⟨0⟩ ⟨1⟩ roomyFile.id) 0).outcome = .ok 3 →
        ((Operator.insert ⟨0⟩ ⟨1⟩ roomyFile.id none roomyScan out).openAll store).Counts 3 :=
      fun fed => Run.counts_inserted fed rfl ..
    exact counted fed

end Operator

end RowStore
