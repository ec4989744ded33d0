import RowStore.Proofs.Pool.Feeding
import RowStore.Proofs.Pool.RowSteps

/-!
# Scanning a table

A cursor that is drained gives the rows of the plain table in the order of their places. It moves pages in and out of
memory, and leaves them as they are.
-/

namespace RowStore

namespace PlainTable

theorem rows_drop {table : PlainTable} {number : Nat} {page : PlainPage}
    (here : table[number]? = some page) : rows (table.drop number) = page.rows ++ rows (table.drop (number + 1)) := by
  obtain ⟨lt, rfl⟩ := List.getElem?_eq_some_iff.mp here
  rw [List.drop_eq_getElem_cons lt, rows, List.flatMap_cons]
  rfl

theorem rows_drop_past {table : PlainTable} {number : Nat} (le : table.length ≤ number) :
    rows (table.drop number) = [] := by
  rw [List.drop_of_length_le le]
  rfl

end PlainTable

/-! ## Pages that stay ahead -/

namespace TableCursor

/-- The rows that the cursor has and did not give yet. -/
def pending (cursor : TableCursor) : List Row := cursor.peeked.toList ++ cursor.current

/-- The rows that the cursor still gives of a table that stays as it is. -/
def left (cursor : TableCursor) (table : PlainTable) : List Row :=
  cursor.pending ++ PlainTable.rows (table.drop cursor.nextPage.toNat)

/-- Where the pages ahead are found as they are in a plain table, its rows are given, whatever happens to those behind.
A condition on the rows to come that each step keeps up holds of none in the end. -/
theorem feed_steady {σ : Type} {At : List Row → σ → Store → Prop} {failed : Failure → Store → Prop}
    {step : σ → Row → Action σ} {pool : PoolId} {file : TableFile} {table : PlainTable}
    (room : table.length < UInt32.size)
    (stepped : ∀ {row rest acc store}, At (row :: rest) acc store → Leads (At rest) failed (step acc row store))
    (ahead : ∀ {n acc store}, n < UInt32.size → At (PlainTable.rows (table.drop n)) acc store →
      ∃ store', pageRows? pool file (UInt32.ofNat n) store = .ok (table[n]?.map PlainPage.rows) store' ∧
        At (PlainTable.rows (table.drop n)) acc store')
    (cursor : TableCursor) (isOpen : cursor.isOpen = true) (pool_eq : cursor.pool = pool) (file_eq : cursor.file = file)
    {acc : σ} {store : Store} (here : At (cursor.left table) acc store) :
    Leads (fun acc s => At [] acc s.2) (fun failure s => failed failure s.2) (feed step acc (cursor, store)) := by
  let At' (n : Nat) (rest : List Row) : σ → Store → Prop := At (rest ++ PlainTable.rows (table.drop n))
  have stepped' : ∀ {n row rest acc store}, At' n (row :: rest) acc store →
      Leads (At' n rest) failed (step acc row store) := stepped
  have turns : ∀ {n acc store}, n < UInt32.size → At' n [] acc store →
      Leads (fun rows? store => rows?.elim (At [] acc store) fun rows => At' (n + 1) rows acc store) failed
        (pageRows? pool file (UInt32.ofNat n) store) := by
    intro n acc store lt here
    obtain ⟨store', rows_eq, here'⟩ := ahead lt here
    rw [rows_eq]
    cases page_eq : table[n]? with
    | none =>
      rw [PlainTable.rows_drop_past (List.getElem?_eq_none_iff.mp page_eq)] at here'
      exact here'
    | some page =>
      rw [PlainTable.rows_drop page_eq] at here'
      exact here'
  have last : ∀ {acc store}, At' UInt32.size [] acc store → At [] acc store := by
    intro acc store here
    unfold At' at here
    rw [PlainTable.rows_drop_past (Nat.le_of_lt room)] at here
    exact here
  exact feed_leads stepped' turns last cursor isOpen pool_eq file_eq here

end TableCursor

/-! ## Files that are read -/

/-- Wherever `inv` holds the file has the pages of a plain table, and looking at any of them keeps `inv`. -/
structure TableFile.Serves (file : TableFile) (pool : PoolId) (table : PlainTable) (inv : Store → Prop) : Prop where
  room : table.length < UInt32.size
  look : ∀ {n : Nat} {store : Store}, n < UInt32.size → inv store → ∃ store',
    TableCursor.pageRows? pool file (UInt32.ofNat n) store = .ok (table[n]?.map PlainPage.rows) store' ∧ inv store'

namespace TableFile.Serves

open TableCursor

variable {file : TableFile} {pool : PoolId} {table : PlainTable} {inv : Store → Prop} {store : Store}

theorem drain_ok (h : file.Serves pool table inv) (here : inv store) (cursor : TableCursor)
    (isOpen : cursor.isOpen = true) (pool_eq : cursor.pool = pool) (file_eq : cursor.file = file) :
    ∃ cursor' store', drain (cursor, store) = .ok (cursor.left table) (cursor', store') ∧ inv store' := by
  let At (rest : List Row) (acc : Array Row) (store : Store) : Prop :=
    inv store ∧ acc.toList ++ rest = cursor.left table
  have stepped : ∀ {row rest acc store}, At (row :: rest) acc store →
      Leads (At rest) (fun _ _ => False) ((return acc.push row : Action (Array Row)) store) := by
    rintro row rest acc store ⟨here, sum_eq⟩
    exact ⟨here, by simpa using sum_eq⟩
  have ahead : ∀ {n acc store}, n < UInt32.size → At (PlainTable.rows (table.drop n)) acc store →
      ∃ store', pageRows? pool file (UInt32.ofNat n) store = .ok (table[n]?.map PlainPage.rows) store' ∧
        At (PlainTable.rows (table.drop n)) acc store' := by
    rintro n acc store lt ⟨here, sum_eq⟩
    obtain ⟨store', rows_eq, here'⟩ := h.look lt here
    exact ⟨store', rows_eq, here', sum_eq⟩
  have start : At (cursor.left table) #[] store := ⟨here, rfl⟩
  have fed := feed_steady h.room stepped ahead cursor isOpen pool_eq file_eq start
  unfold drain
  cases run : feed (fun rows row => return rows.push row) (#[] : Array Row) (cursor, store) with
  | error failure s =>
    rw [run] at fed
    exact fed.elim
  | ok rows s =>
    rw [run] at fed
    obtain ⟨here', rows_eq⟩ := fed
    rw [List.append_nil] at rows_eq
    exact ⟨s.1, s.2, by rw [Action.bind_ok run, ← rows_eq]; rfl, here'⟩

end TableFile.Serves

namespace PoolId.Shows

open TableCursor

variable {pool : PoolId} {tables : Tables} {capacity : Nat} {current : Contents} {store : Store} {file : TableFile}

/-! ## Files of a pool -/

theorem pageRows?_ok (h : pool.Shows tables capacity current store) (mem : file ∈ tables.files)
    (room : (current file.id).length < UInt32.size) {n : Nat} (lt : n < UInt32.size) :
    ∃ store', pageRows? pool file (UInt32.ofNat n) store = .ok ((current file.id)[n]?.map PlainPage.rows) store' ∧
      pool.Shows tables capacity current store' := by
  have count_eq : (UInt32.ofNat (current file.id).length).toNat = (current file.id).length :=
    toNat_ofNat_of_lt room (Nat.le_refl _)
  have number_eq : (UInt32.ofNat n).toNat = n := toNat_ofNat_of_lt lt (Nat.le_refl _)
  have past_iff : UInt32.ofNat (current file.id).length ≤ UInt32.ofNat n ↔ (current file.id).length ≤ n := by
    rw [UInt32.le_iff_toNat_le, count_eq, number_eq]
  unfold pageRows?
  rw [Action.bind_ok (h.pageCount_eq mem)]
  cases here : (current file.id)[n]? with
  | none =>
    have past := past_iff.mpr (List.getElem?_eq_none_iff.mp here)
    refine ⟨store, ?_, h⟩
    simp only [past, ite_true]
    rfl
  | some rows =>
    have inside : ¬UInt32.ofNat (current file.id).length ≤ UInt32.ofNat n := fun past =>
      absurd (past_iff.mp past) (Nat.not_le_of_lt (List.getElem?_eq_some_iff.mp here).1)
    obtain ⟨saved, entries, represents⟩ := h
    have here' : current.page? (file.pageId (UInt32.ofNat n)) = some rows := by
      rw [Contents.page?, TableFile.pageId, number_eq, here]
    obtain ⟨frame, saved', entries', store', fetch_eq, represents'⟩ := represents.fetch_ok mem rfl here'
    obtain ⟨mark, frame_eq, -⟩ := represents'.fetched mem rfl here' List.mem_cons_self
    refine ⟨store', ?_, saved', _, represents'⟩
    simp only [inside, ite_false]
    rw [Action.bind_ok fetch_eq, Action.bind_ok (FrameId.page_eq frame_eq), TableFile.rows_page]
    rfl

theorem serves (mem : file ∈ tables.files) (room : (current file.id).length < UInt32.size) :
    file.Serves pool (current file.id) (pool.Shows tables capacity current) where
  room := room
  look := fun lt here => here.pageRows?_ok mem room lt

theorem serves_all (room : ∀ file ∈ tables.files, (current file.id).length < UInt32.size) :
    ∀ file ∈ tables.files, file.Serves pool (current file.id) (pool.Shows tables capacity current) :=
  fun file mem => serves mem (room file mem)

theorem scan_ok (h : pool.Shows tables capacity current store) (table : TableId)
    (room : ∀ file ∈ tables.files, (current file.id).length < UInt32.size) :
    ∃ store', (pool.scan table).Ends store (current.scan tables.files table) store' ∧
      pool.Shows tables capacity current store' := by
  have found := h.lookUp_eq table
  unfold PoolId.scan Contents.scan
  cases among_eq : TableFile.among tables.files table with
  | error e =>
    rw [among_eq] at found
    exact ⟨store, Action.bind_error (Store.lookUp_error found), h⟩
  | ok file =>
    rw [among_eq] at found
    obtain ⟨mem, rfl⟩ := TableFile.mem_of_among among_eq
    obtain ⟨cursor', store', drain_eq, shows'⟩ :=
      (serves mem (room file mem)).drain_ok h (TableCursor.new file pool).opened rfl rfl rfl
    refine ⟨store', (Action.bind_ok (Store.lookUp_ok found)).trans ?_, shows'⟩
    simp only [drain_eq]
    rfl

end PoolId.Shows

end RowStore
