import RowStore.Proofs.Pool.Filled

/-!
# Storing rows in a table

A row is stored in the lowest empty slot. So the rows that are stored one after another take the empty slots of the
first pages before they reach the pages behind them, and how far they get is a matter of counting.
-/

namespace RowStore

/-! ## Empty slots -/

namespace PlainPage

def spare (page : PlainPage) : Nat := page.countP Option.isNone

variable {page : PlainPage} {slot : Nat}

theorem length_rows (page : PlainPage) : page.rows.length = page.countP Option.isSome := by
  unfold rows
  rw [List.length_filterMap_eq_countP]

theorem length_rows_set (here : page[slot]? = some none) (row : Row) :
    (rows (page.set slot (some row))).length = page.rows.length + 1 := by
  obtain ⟨lt, empty⟩ := List.getElem?_eq_some_iff.mp here
  rw [length_rows, length_rows, List.countP_set lt, empty]
  rfl

theorem spare_pos (here : page[slot]? = some none) : 0 < page.spare :=
  List.countP_pos_iff.mpr ⟨none, List.mem_of_getElem? here, rfl⟩

theorem spare_set (here : page[slot]? = some none) (row : Row) :
    spare (page.set slot (some row)) + 1 = page.spare := by
  have pos := spare_pos here
  obtain ⟨lt, empty⟩ := List.getElem?_eq_some_iff.mp here
  unfold spare at pos ⊢
  rw [List.countP_set lt, empty]
  simp only [Option.isNone_none, Option.isNone_some, ite_true, Bool.false_eq_true, ite_false]
  omega

theorem free?_eq_some (free : page.free? = some slot) : page[slot]? = some none := by
  obtain ⟨lt, empty, -⟩ := List.findIdx?_eq_some_iff_getElem.mp free
  rw [List.getElem?_eq_getElem lt, Option.isNone_iff_eq_none.mp empty]

theorem spare_eq_zero (free : page.free? = none) : page.spare = 0 := by
  rw [spare, List.countP_eq_zero]
  intro slot mem
  exact Bool.eq_false_iff.mp (List.findIdx?_eq_none_iff.mp free slot mem)

end PlainPage

namespace PlainTable

/-- The number of empty slots. -/
def spare : PlainTable → Nat
  | [] => 0
  | page :: pages => page.spare + spare pages

/-- The pages up to any one have an empty slot for each of their rows. -/
def Balanced (table : PlainTable) : Prop := ∀ n, (rows (table.take n)).length ≤ spare (table.take n)

variable {table pages : PlainTable} {number slot n : Nat} {page : PlainPage}

theorem rows_append (table pages : PlainTable) : rows (table ++ pages) = rows table ++ rows pages :=
  List.flatMap_append

theorem spare_append (table pages : PlainTable) : spare (table ++ pages) = spare table + spare pages := by
  induction table with
  | nil => exact (Nat.zero_add _).symm
  | cons page table ih => rw [List.cons_append, spare, spare, ih, Nat.add_assoc]

theorem spare_take_le (table : PlainTable) (n : Nat) : spare (table.take n) ≤ spare table := by
  have := spare_append (table.take n) (table.drop n)
  rw [List.take_append_drop] at this
  omega

theorem spare_take_mono (table : PlainTable) {m n : Nat} (le : m ≤ n) :
    spare (table.take m) ≤ spare (table.take n) := by
  have := spare_take_le (table.take n) m
  rwa [List.take_take, Nat.min_eq_left le] at this

theorem rows_split (here : table[number]? = some page) :
    rows table = rows (table.take number) ++ page.rows ++ rows (table.drop (number + 1)) := by
  obtain ⟨lt, rfl⟩ := List.getElem?_eq_some_iff.mp here
  conv => lhs; rw [← List.take_append_drop number table, List.drop_eq_getElem_cons lt]
  rw [rows_append, List.append_assoc]
  rfl

theorem rows_take_succ (here : table[number]? = some page) :
    rows (table.take (number + 1)) = rows (table.take number) ++ page.rows := by
  obtain ⟨lt, rfl⟩ := List.getElem?_eq_some_iff.mp here
  rw [List.take_succ_eq_append_getElem lt, rows_append]
  exact congrArg _ (List.flatMap_singleton ..)

theorem spare_split (here : table[number]? = some page) :
    spare table = spare (table.take number) + page.spare + spare (table.drop (number + 1)) := by
  obtain ⟨lt, rfl⟩ := List.getElem?_eq_some_iff.mp here
  conv => lhs; rw [← List.take_append_drop number table, List.drop_eq_getElem_cons lt]
  rw [spare_append, Nat.add_assoc]
  rfl

theorem length_rows_set {page' : PlainPage} (here : table[number]? = some page)
    (more : page'.rows.length = page.rows.length + 1) :
    (rows (table.set number page')).length = (rows table).length + 1 := by
  have here' : (table.set number page')[number]? = some page' :=
    List.getElem?_set_self (List.getElem?_eq_some_iff.mp here).1
  rw [rows_split here', rows_split here, List.take_set_of_le (Nat.le_refl _),
    List.drop_set_of_lt (Nat.lt_add_one _)]
  simp only [List.length_append]
  omega

theorem spare_set {page' : PlainPage} (here : table[number]? = some page) (less : page'.spare + 1 = page.spare) :
    spare (table.set number page') + 1 = spare table := by
  have here' : (table.set number page')[number]? = some page' :=
    List.getElem?_set_self (List.getElem?_eq_some_iff.mp here).1
  rw [spare_split here', spare_split here, List.take_set_of_le (Nat.le_refl _),
    List.drop_set_of_lt (Nat.lt_add_one _)]
  omega

theorem free?_eq_some {table : PlainTable} {number slot : Nat} (free : table.free? = some (number, slot)) :
    ∃ page, table[number]? = some page ∧ page[slot]? = some none ∧ spare (table.take number) = 0 := by
  induction table generalizing number with
  | nil => cases free
  | cons first table ih =>
    unfold free? at free
    split at free
    · next here =>
      cases free
      exact ⟨first, rfl, PlainPage.free?_eq_some here, rfl⟩
    · next full =>
      obtain ⟨⟨number', slot'⟩, free', place_eq⟩ := Option.map_eq_some_iff.mp free
      cases place_eq
      obtain ⟨page, here, empty, full'⟩ := ih free'
      refine ⟨page, here, empty, ?_⟩
      rw [List.take_succ_cons, spare, PlainPage.spare_eq_zero full, Nat.zero_add]
      exact full'

theorem spare_eq_zero {table : PlainTable} (free : table.free? = none) : spare table = 0 := by
  induction table with
  | nil => rfl
  | cons first table ih =>
    unfold free? at free
    split at free
    · cases free
    · next full =>
      rw [spare, PlainPage.spare_eq_zero full, Nat.zero_add]
      exact ih (Option.map_eq_none_iff.mp free)

end PlainTable

/-! ## One row -/

namespace TableFile

open PlainTable

variable {file : TableFile} {table table' pages : PlainTable} {row : Row} {n : Nat}

/-- The table with one more row, in its lowest empty slot. -/
def add (file : TableFile) (table : PlainTable) (row : Row) : PlainTable :=
  let (pages, number, slot) := table.makeRoom file
  pages.put number slot (some (row.withId (some (file.rowId number slot))))

theorem spare_blankPage (file : TableFile) : file.blankPage.spare = file.slots := by
  unfold blankPage PlainPage.spare
  rw [List.countP_replicate]
  rfl

theorem rows_blankPage (file : TableFile) : file.blankPage.rows = [] := by
  unfold blankPage PlainPage.rows
  rw [List.filterMap_replicate]

/-- The row is stored on page `number` of `pages`, before which no slot is empty. There is a new page only where no
other slot is empty. -/
structure AddsOn (file : TableFile) (table : PlainTable) (row : Row) (pages : PlainTable) (number : Nat)
    (page page' : PlainPage) : Prop where
  grown : pages = table ∧ 0 < spare table ∨ pages = table ++ [file.blankPage] ∧ spare table = 0
  here : pages[number]? = some page
  before : spare (pages.take number) = 0
  more : page'.rows.length = page.rows.length + 1
  less : page'.spare + 1 = page.spare
  add_eq : file.add table row = pages.set number page'

theorem addsOn (opened : file.Opened) (table : PlainTable) (row : Row) :
    ∃ pages number page page', file.AddsOn table row pages number page page' := by
  cases free : table.free? with
  | some place =>
    obtain ⟨number, slot⟩ := place
    obtain ⟨page, here, empty, before⟩ := PlainTable.free?_eq_some free
    have pos := PlainPage.spare_pos empty
    have split := spare_split here
    have add_eq : file.add table row =
        table.set number (page.set slot (some (row.withId (some (file.rowId number slot))))) := by
      unfold add makeRoom
      rw [free]
      exact put_eq_set here ..
    exact ⟨_, _, _, _, .inl ⟨rfl, by omega⟩, here, before, PlainPage.length_rows_set empty _,
      PlainPage.spare_set empty _, add_eq⟩
  | none =>
    have full := PlainTable.spare_eq_zero free
    have here : (table ++ [file.blankPage])[table.length]? = some file.blankPage := List.getElem?_concat_length
    have empty := PlainPage.free?_eq_some (TableFile.free?_blankPage opened)
    have before : spare ((table ++ [file.blankPage]).take table.length) = 0 := by
      rw [List.take_left]
      exact full
    have add_eq : file.add table row = (table ++ [file.blankPage]).set table.length
        (file.blankPage.set 0 (some (row.withId (some (file.rowId table.length 0))))) := by
      unfold add makeRoom
      rw [free]
      exact put_eq_set here ..
    exact ⟨_, _, _, _, .inr ⟨rfl, full⟩, here, before, PlainPage.length_rows_set empty _,
      PlainPage.spare_set empty _, add_eq⟩

namespace AddsOn

variable {number : Nat} {page page' : PlainPage}

theorem take_eq (h : file.AddsOn table row pages number page page') (le : n ≤ table.length) :
    pages.take n = table.take n := by
  obtain ⟨rfl, -⟩ | ⟨rfl, -⟩ := h.grown
  · rfl
  · exact List.take_append_of_le_length le

theorem length_rows_drop (h : file.AddsOn table row pages number page page') (le : n ≤ table.length) :
    (rows (pages.drop n)).length = (rows (table.drop n)).length := by
  obtain ⟨rfl, -⟩ | ⟨rfl, -⟩ := h.grown
  · rfl
  · rw [List.drop_append_of_le_length le, rows_append, List.length_append, rows, rows, List.flatMap_singleton,
      rows_blankPage]
    rfl

theorem lt_of_spare (h : file.AddsOn table row pages number page page') (room : 0 < spare (pages.take n)) :
    number < n := by
  by_contra ge
  have le := spare_take_mono pages (Nat.le_of_not_lt ge)
  have before := h.before
  omega

theorem le_of_full (h : file.AddsOn table row pages number page page') (full : spare (pages.take n) = 0) :
    n ≤ number := by
  by_contra lt
  have here : (pages.take n)[number]? = some page := by rw [List.getElem?_take, if_pos (by omega), h.here]
  have split := spare_split here
  have less := h.less
  omega

end AddsOn

theorem add_of_spare (opened : file.Opened) (room : 0 < spare (table.take n)) (row : Row) :
    (file.add table row).drop n = table.drop n ∧ spare ((file.add table row).take n) + 1 = spare (table.take n) := by
  obtain ⟨pages, number, page, page', adds⟩ := file.addsOn opened table row
  have le := spare_take_le table n
  obtain ⟨rfl, -⟩ | ⟨-, full⟩ := adds.grown
  · have lt := adds.lt_of_spare room
    have here : (pages.take n)[number]? = some page := by rw [List.getElem?_take, if_pos lt, adds.here]
    rw [adds.add_eq, List.take_set]
    exact ⟨List.drop_set_of_lt lt, spare_set here adds.less⟩
  · omega

theorem add_of_full (opened : file.Opened) (le : n ≤ table.length) (full : spare (table.take n) = 0) (row : Row) :
    spare ((file.add table row).take n) = 0 ∧
      (rows ((file.add table row).drop n)).length = (rows (table.drop n)).length + 1 := by
  obtain ⟨pages, number, page, page', adds⟩ := file.addsOn opened table row
  have ge := adds.le_of_full (adds.take_eq le ▸ full)
  have here : (pages.drop n)[number - n]? = some page := by rw [List.getElem?_drop, Nat.add_sub_cancel' ge, adds.here]
  rw [adds.add_eq, List.take_set_of_le ge, adds.take_eq le, List.drop_set, if_neg (Nat.not_lt.mpr ge),
    length_rows_set here adds.more, adds.length_rows_drop le]
  exact ⟨full, rfl⟩

theorem size_add (opened : file.Opened) (table : PlainTable) (row : Row) :
    (file.add table row).length = table.length + (if spare table = 0 then 1 else 0) ∧
      spare (file.add table row) + 1 = if spare table = 0 then file.slots else spare table := by
  obtain ⟨pages, number, page, page', adds⟩ := file.addsOn opened table row
  have spare_eq := spare_set adds.here adds.less
  rw [adds.add_eq, List.length_set, spare_eq]
  obtain ⟨rfl, pos⟩ | ⟨rfl, full⟩ := adds.grown
  · rw [if_neg (Nat.ne_of_gt pos), if_neg (Nat.ne_of_gt pos)]
    exact ⟨rfl, rfl⟩
  · rw [if_pos full, if_pos full, List.length_append, spare_append, full, Nat.zero_add]
    exact ⟨rfl, (Nat.add_zero _).trans file.spare_blankPage⟩

theorem add_occupied (opened : file.Opened) {k : Nat}
    (occupied : ∀ n page, k ≤ n → table[n]? = some page → 0 < page.rows.length) (row : Row) :
    ∀ n page, k ≤ n → (file.add table row)[n]? = some page → 0 < page.rows.length := by
  intro n found le found_eq
  obtain ⟨pages, number, page, page', adds⟩ := file.addsOn opened table row
  rw [adds.add_eq, List.getElem?_set] at found_eq
  split at found_eq
  · rw [if_pos (List.getElem?_eq_some_iff.mp adds.here).1] at found_eq
    cases found_eq
    have more := adds.more
    omega
  · next other =>
    obtain ⟨rfl, -⟩ | ⟨rfl, full⟩ := adds.grown
    · exact occupied n found le found_eq
    · -- The row is on the page that was added.
      have ge := adds.le_of_full ((congrArg spare List.take_left).trans full)
      have lt := (List.getElem?_eq_some_iff.mp found_eq).1
      have lt' := (List.getElem?_eq_some_iff.mp adds.here).1
      rw [List.length_append, List.length_singleton] at lt lt'
      rw [List.getElem?_append_left (by omega)] at found_eq
      exact occupied n found le found_eq

/-! ## Rows in turn -/

variable {given given' : List Row}

/-- The table with more rows, each in the slot that is the lowest empty one by then. -/
def addAll (file : TableFile) (table : PlainTable) (given : List Row) : PlainTable := given.foldl file.add table

theorem addAll_of_spare (opened : file.Opened) (room : given.length ≤ spare (table.take n)) :
    (file.addAll table given).drop n = table.drop n := by
  induction given generalizing table with
  | nil => rfl
  | cons row given ih =>
    rw [List.length_cons] at room
    have pos : 0 < spare (table.take n) := by omega
    obtain ⟨drop_eq, spare_eq⟩ := add_of_spare opened pos row
    have room' : given.length ≤ spare ((file.add table row).take n) := by omega
    exact (ih room').trans drop_eq

theorem length_rows_addAll (opened : file.Opened) (le : n ≤ table.length) (given : List Row) :
    (rows ((file.addAll table given).drop n)).length =
      (rows (table.drop n)).length + (given.length - spare (table.take n)) := by
  induction given generalizing table with
  | nil => rw [List.length_nil, Nat.zero_sub]; rfl
  | cons row given ih =>
    have size := (file.size_add opened table row).1
    rw [List.length_cons]
    refine (ih (by omega)).trans ?_
    by_cases full : spare (table.take n) = 0
    · obtain ⟨full', rows_eq⟩ := add_of_full opened le full row
      omega
    · obtain ⟨drop_eq, spare_eq⟩ := add_of_spare opened (Nat.pos_of_ne_zero full) row
      rw [drop_eq]
      omega

theorem length_le_addAll (opened : file.Opened) (table : PlainTable) (given : List Row) :
    table.length ≤ (file.addAll table given).length := by
  induction given generalizing table with
  | nil => exact Nat.le_refl _
  | cons row given ih =>
    have size := (file.size_add opened table row).1
    exact Nat.le_trans (by omega) (ih (file.add table row))

theorem length_addAll_mono (opened : file.Opened) (length_eq : table.length = table'.length)
    (spare_eq : spare table = spare table') (le : given.length ≤ given'.length) :
    (file.addAll table given).length ≤ (file.addAll table' given').length := by
  induction given generalizing table table' given' with
  | nil => exact length_eq ▸ file.length_le_addAll opened table' given'
  | cons row given ih =>
    cases given' with
    | nil => simp at le
    | cons row' given' =>
      -- How many pages and empty slots there are then depends on their numbers alone, not on the row.
      obtain ⟨length_eq₁, spare_eq₁⟩ := file.size_add opened table row
      obtain ⟨length_eq₂, spare_eq₂⟩ := file.size_add opened table' row'
      rw [spare_eq] at length_eq₁ spare_eq₁
      have length_eq' : (file.add table row).length = (file.add table' row').length := by omega
      have spare_eq' : spare (file.add table row) = spare (file.add table' row') := by omega
      have le' : given.length ≤ given'.length := Nat.le_of_succ_le_succ le
      have mono := ih length_eq' spare_eq' le'
      exact mono

theorem addAll_occupied (opened : file.Opened) {k : Nat}
    (occupied : ∀ n page, k ≤ n → table[n]? = some page → 0 < page.rows.length) (given : List Row) :
    ∀ n page, k ≤ n → (file.addAll table given)[n]? = some page → 0 < page.rows.length := by
  induction given generalizing table with
  | nil => exact occupied
  | cons row given ih => exact ih (add_occupied opened occupied row)

end TableFile

/-! ## The pool -/

namespace Contents

open TableFile

variable {contents : Contents} {tables : Tables} {file : TableFile} {table : TableId} {given rows : List Row}
  {row : Row}

def insertAll (files : List TableFile) (contents : Contents) (table : TableId) (rows : List Row) : Contents :=
  rows.foldl (fun contents row => (contents.insert files table row).1) contents

theorem insert_eq (mem : file ∈ tables.files) (schema_eq : row.schema = file.schema) (contents : Contents) :
    ∃ stored, contents.insert tables.files file.id row =
      (contents.setTable file.id (file.add (contents file.id) row), .ok stored) := by
  unfold insert
  rw [tables.among_eq mem]
  simp only [ne_eq, schema_eq, not_true, ite_false]
  exact ⟨_, rfl⟩

theorem insertAll_eq (mem : file ∈ tables.files) (schemas : ∀ row ∈ rows, row.schema = file.schema)
    (contents : Contents) :
    contents.insertAll tables.files file.id rows =
      contents.setTable file.id (file.addAll (contents file.id) rows) := by
  induction rows generalizing contents with
  | nil =>
    funext other
    by_cases same : other = file.id
    · subst same
      exact (setTable_self ..).symm
    · exact (setTable_of_ne _ _ same).symm
  | cons row rows ih =>
    obtain ⟨stored, insert_eq⟩ := insert_eq mem (schemas row List.mem_cons_self) contents
    have rest_eq := ih (fun other other_mem => schemas other (List.mem_cons_of_mem _ other_mem))
      (contents.insert tables.files file.id row).1
    rw [insertAll, List.foldl_cons]
    refine rest_eq.trans ?_
    rw [insert_eq]
    dsimp only
    rw [setTable_setTable, setTable_self]
    rfl

theorem insertAll_append (files : List TableFile) (contents : Contents) (table : TableId) (given rows : List Row) :
    contents.insertAll files table (given ++ rows) =
      (contents.insertAll files table given).insertAll files table rows :=
  List.foldl_append

theorem Fit.insertAll (mem : file ∈ tables.files)
    (fit : (contents.insertAll tables.files file.id rows).Fit tables.files)
    (schemas : ∀ row ∈ rows, row.schema = file.schema) (schemas' : ∀ row ∈ given, row.schema = file.schema)
    (le : given.length ≤ rows.length) : (contents.insertAll tables.files file.id given).Fit tables.files := by
  intro other other_mem
  have room := fit other other_mem
  have le' : (contents.insertAll tables.files file.id given other.id).length ≤
      (contents.insertAll tables.files file.id rows other.id).length := by
    rw [insertAll_eq mem schemas, insertAll_eq mem schemas']
    by_cases same : other.id = file.id
    · rw [same, setTable_self, setTable_self]
      exact length_addAll_mono (tables.opened file mem) rfl rfl le
    · exact Nat.le_of_eq (by rw [setTable_of_ne _ _ same, setTable_of_ne _ _ same])
  exact ⟨Nat.lt_of_le_of_lt le' room.1, Nat.le_trans (Nat.mul_le_mul_right _ le') room.2⟩

end Contents

theorem PoolId.Shows.insertAll_ok {pool : PoolId} {tables : Tables} {capacity : Nat} {contents : Contents}
    {store : Store} {file : TableFile} {given : List Row} {row : Row} (mem : file ∈ tables.files)
    (h : pool.Shows tables capacity (contents.insertAll tables.files file.id given) store) (txn : TxnId)
    (made : row.Made) (schema_eq : row.schema = file.schema)
    (room : (contents.insertAll tables.files file.id given).Fit tables.files)
    (fit : (contents.insertAll tables.files file.id (given ++ [row])).Fit tables.files) :
    ∃ store', discard (pool.insert txn file.id row) store = .ok () store' ∧
      pool.Shows tables capacity (contents.insertAll tables.files file.id (given ++ [row])) store' := by
  obtain ⟨stored, insert_eq⟩ := Contents.insert_eq mem schema_eq (contents.insertAll tables.files file.id given)
  obtain ⟨store', ends, shows'⟩ := h.insert_ok txn file.id made (fun other other_mem => (room other other_mem).1)
    (fun other other_mem same => by
      have fits := (fit other other_mem).2
      rw [Contents.insertAll_append, same] at fits
      exact fits)
  rw [insert_eq] at ends
  rw [Contents.insertAll_append]
  exact ⟨store', Action.discard_ok ends, shows'⟩

end RowStore
