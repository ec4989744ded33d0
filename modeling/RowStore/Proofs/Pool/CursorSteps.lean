import RowStore.Proofs.Pool.Scanning

/-!
# Steps of a cursor

A cursor has rows that it copied and did not give yet, and pages to come. Each call gives the first of these rows, if
any, and copies pages on the way when it has none.
-/

namespace RowStore

/-! ## Rows of some of the pages -/

namespace PlainTable

variable {table : PlainTable} {first middle last : Nat}

/-- The rows of the pages from one number to before another. -/
def rowsFrom (table : PlainTable) (first last : Nat) : List Row := rows ((table.drop first).take (last - first))

@[simp] theorem rowsFrom_self (table : PlainTable) (number : Nat) : table.rowsFrom number number = [] := by
  rw [rowsFrom, Nat.sub_self, List.take_zero]
  rfl

theorem rowsFrom_succ {page : PlainPage} (here : table[first]? = some page) :
    table.rowsFrom first (first + 1) = page.rows := by
  obtain ⟨lt, rfl⟩ := List.getElem?_eq_some_iff.mp here
  rw [rowsFrom, Nat.add_sub_cancel_left, List.drop_eq_getElem_cons lt, List.take_succ_cons, List.take_zero, rows,
    List.flatMap_singleton]

theorem rowsFrom_append (le : first ≤ middle) (le' : middle ≤ last) :
    table.rowsFrom first middle ++ table.rowsFrom middle last = table.rowsFrom first last := by
  obtain ⟨n, rfl⟩ := Nat.exists_eq_add_of_le le
  obtain ⟨m, rfl⟩ := Nat.exists_eq_add_of_le le'
  unfold rowsFrom
  rw [Nat.add_assoc, Nat.add_sub_cancel_left, Nat.add_sub_cancel_left, ← Nat.add_assoc, Nat.add_sub_cancel_left,
    List.take_add, List.drop_drop, rows, rows, rows, List.flatMap_append]

theorem rowsFrom_rest (le : first ≤ middle) :
    table.rowsFrom first middle ++ rows (table.drop middle) = rows (table.drop first) := by
  obtain ⟨n, rfl⟩ := Nat.exists_eq_add_of_le le
  unfold rowsFrom
  rw [Nat.add_sub_cancel_left, ← List.drop_drop, rows, rows, rows, ← List.flatMap_append, List.take_append_drop]

end PlainTable

/-! ## What a cursor gave -/

namespace TableCursor

/-- A cursor gave some of the rows that it had and of the pages up to where it stands now, and has the others. -/
structure Reads (table : PlainTable) (given : List Row) (cursor cursor' : TableCursor) : Prop where
  pool_eq : cursor'.pool = cursor.pool
  file_eq : cursor'.file = cursor.file
  isOpen_eq : cursor'.isOpen = cursor.isOpen
  forward : cursor.nextPage.toNat ≤ cursor'.nextPage.toNat
  within : cursor'.nextPage = cursor.nextPage ∨ cursor'.nextPage.toNat ≤ table.length
  pending_eq : cursor.pending ++ table.rowsFrom cursor.nextPage.toNat cursor'.nextPage.toNat =
    given ++ cursor'.pending

theorem nextPage_turned {cursor : TableCursor} (lt : cursor.nextPage.toNat + 1 < UInt32.size) (rows : List Row) :
    (cursor.turned rows).nextPage.toNat = cursor.nextPage.toNat + 1 := by
  unfold turned
  rw [UInt32.toNat_add]
  exact Nat.mod_eq_of_lt lt

namespace Reads

variable {table : PlainTable} {given given' : List Row} {cursor cursor' cursor'' : TableCursor}

theorem ofPending (pool_eq : cursor'.pool = cursor.pool) (file_eq : cursor'.file = cursor.file)
    (isOpen_eq : cursor'.isOpen = cursor.isOpen) (number_eq : cursor'.nextPage = cursor.nextPage)
    (pending_eq : cursor.pending = given ++ cursor'.pending) : Reads table given cursor cursor' where
  pool_eq := pool_eq
  file_eq := file_eq
  isOpen_eq := isOpen_eq
  forward := Nat.le_of_eq (congrArg UInt32.toNat number_eq.symm)
  within := .inl number_eq
  pending_eq := by rw [number_eq, PlainTable.rowsFrom_self, List.append_nil, pending_eq]

theorem refl (table : PlainTable) (cursor : TableCursor) : Reads table [] cursor cursor :=
  .ofPending rfl rfl rfl rfl rfl

theorem trans (h : Reads table given cursor cursor') (h' : Reads table given' cursor' cursor'') :
    Reads table (given ++ given') cursor cursor'' where
  pool_eq := h'.pool_eq.trans h.pool_eq
  file_eq := h'.file_eq.trans h.file_eq
  isOpen_eq := h'.isOpen_eq.trans h.isOpen_eq
  forward := Nat.le_trans h.forward h'.forward
  within := by
    rcases h'.within with same | within
    · rw [same]
      exact h.within
    · exact .inr within
  pending_eq := by
    rw [← PlainTable.rowsFrom_append h.forward h'.forward, ← List.append_assoc, h.pending_eq, List.append_assoc,
      h'.pending_eq, List.append_assoc]

theorem left_eq (h : Reads table given cursor cursor') : cursor.left table = given ++ cursor'.left table := by
  unfold left
  rw [← PlainTable.rowsFrom_rest h.forward, ← List.append_assoc, h.pending_eq, List.append_assoc]

theorem turned {page : PlainPage} (spent : cursor.pending = []) (here : table[cursor.nextPage.toNat]? = some page)
    (room : table.length < UInt32.size) : Reads table [] cursor (cursor.turned page.rows) := by
  have lt := (List.getElem?_eq_some_iff.mp here).1
  have number_eq := nextPage_turned (Nat.lt_of_le_of_lt lt room) page.rows
  obtain ⟨peeked, -⟩ : cursor.peeked = none ∧ cursor.current = [] := by simpa [pending] using spent
  have pending_eq : (cursor.turned page.rows).pending = page.rows := by
    unfold pending TableCursor.turned
    rw [peeked]
    rfl
  refine ⟨rfl, rfl, rfl, by omega, .inr (by omega), ?_⟩
  rw [number_eq, spent, pending_eq, PlainTable.rowsFrom_succ here]

end Reads

end TableCursor

namespace TableFile.Serves

open TableCursor

variable {file : TableFile} {pool : PoolId} {table : PlainTable} {inv : Store → Prop} {store : Store}
  {cursor : TableCursor}

/-! ## The calls -/

theorem advance_ok (h : file.Serves pool table inv) (here : inv store) (pool_eq : cursor.pool = pool)
    (file_eq : cursor.file = file) (peeked : cursor.peeked = none) {left : Nat}
    (sum_eq : cursor.nextPage.toNat + left = UInt32.size) :
    ∃ cursor' store', advance left (cursor, store) =
        .ok (cursor.left table).head? (cursor', store') ∧
      Reads table (cursor.left table).head?.toList cursor cursor' ∧ cursor'.peeked = none ∧ inv store' ∧
      (cursor.left table = [] → table.length ≤ cursor'.nextPage.toNat) := by
  induction left generalizing cursor store with
  | zero =>
    have lt := cursor.nextPage.toNat_lt
    change _ < UInt32.size at lt
    omega
  | succ left ih =>
    unfold advance takeRow
    simp only [bind_assoc]
    rw [Action.bind_ok (read_eq ..)]
    cases rows_eq : cursor.current with
    | cons row rest =>
      have pending_eq : cursor.pending = row :: rest := by rw [pending, peeked, rows_eq]; rfl
      refine ⟨{ cursor with current := rest }, store, ?_, ?_, peeked, here, fun none => ?_⟩
      · rw [TableCursor.left, pending_eq]
        rfl
      · rw [TableCursor.left, pending_eq]
        exact .ofPending rfl rfl rfl rfl (by rw [pending_eq, pending, peeked]; rfl)
      · rw [TableCursor.left, pending_eq] at none
        cases none
    | nil =>
      have spent : cursor.pending = [] := by rw [pending, peeked, rows_eq]; rfl
      have lt := cursor.nextPage.toNat_lt
      change _ < UInt32.size at lt
      obtain ⟨store₁, rows_eq', here₁⟩ := h.look lt here
      rw [UInt32.ofNat_toNat, ← pool_eq, ← file_eq] at rows_eq'
      have run := turn_eq (pure none) (advance left) cursor store
      rw [rows_eq'] at run
      cases page_eq : table[cursor.nextPage.toNat]? with
      | none =>
        have left_eq : cursor.left table = [] := by
          rw [TableCursor.left, spent, PlainTable.rows_drop_past (List.getElem?_eq_none_iff.mp page_eq)]
          rfl
        rw [page_eq] at run
        refine ⟨cursor, store₁, ?_, ?_, peeked, here₁, fun _ => List.getElem?_eq_none_iff.mp page_eq⟩
        · rw [left_eq]
          exact run
        · rw [left_eq]
          exact .refl ..
      | some page =>
        have reads := Reads.turned spent page_eq h.room
        have number_eq := nextPage_turned (Nat.lt_of_le_of_lt (List.getElem?_eq_some_iff.mp page_eq).1 h.room) page.rows
        rw [page_eq] at run
        have sum_eq' : (cursor.turned page.rows).nextPage.toNat + left = UInt32.size := by omega
        obtain ⟨cursor', store', advance_eq, reads', peeked', rest⟩ := ih here₁
          (reads.pool_eq.trans pool_eq) (reads.file_eq.trans file_eq) peeked sum_eq'
        rw [reads.left_eq]
        exact ⟨cursor', store', run.trans advance_eq, reads.trans reads', peeked', rest⟩

theorem fetchRow_ok (h : file.Serves pool table inv) (here : inv store) (pool_eq : cursor.pool = pool)
    (file_eq : cursor.file = file) (peeked : cursor.peeked = none) :
    ∃ cursor' store', fetchRow (cursor, store) = .ok (cursor.left table).head? (cursor', store') ∧
      Reads table (cursor.left table).head?.toList cursor cursor' ∧ cursor'.peeked = none ∧ inv store' ∧
      (cursor.left table = [] → table.length ≤ cursor'.nextPage.toNat) :=
  h.advance_ok here pool_eq file_eq peeked (Nat.add_sub_cancel' (Nat.le_of_lt cursor.nextPage.toNat_lt))

theorem hasNext_ok (h : file.Serves pool table inv) (here : inv store) (pool_eq : cursor.pool = pool)
    (file_eq : cursor.file = file) (isOpen : cursor.isOpen = true) :
    ∃ cursor' store', hasNext (cursor, store) = .ok (cursor.left table).head?.isSome (cursor', store') ∧
      Reads table [] cursor cursor' ∧ inv store' ∧
      (cursor.left table = [] → table.length ≤ cursor'.nextPage.toNat) := by
  unfold hasNext
  rw [Action.bind_ok (requireOpen_ok isOpen store), Action.bind_ok (read_eq ..)]
  cases peeked : cursor.peeked with
  | some row =>
    have left_eq : (cursor.left table).head? = some row := by
      rw [TableCursor.left, pending, peeked]
      rfl
    refine ⟨cursor, store, ?_, .refl .., here, fun none => ?_⟩
    · rw [left_eq]
      exact Action.bind_ok (read_eq ..) |>.trans (by rw [peeked]; rfl)
    · rw [none] at left_eq
      cases left_eq
  | none =>
    obtain ⟨cursor₁, store', fetch_eq, reads, peeked₁, rest⟩ := h.fetchRow_ok here pool_eq file_eq peeked
    refine ⟨{ cursor₁ with peeked := (cursor.left table).head? }, store', ?_, ?_, rest⟩
    · simp only [Option.isNone_none, ite_true]
      exact (Action.bind_ok fetch_eq).trans rfl
    · refine ⟨reads.pool_eq, reads.file_eq, reads.isOpen_eq, reads.forward, reads.within, ?_⟩
      rw [reads.pending_eq, pending, pending, peeked₁]
      rfl

theorem next_ok (h : file.Serves pool table inv) (here : inv store) (pool_eq : cursor.pool = pool)
    (file_eq : cursor.file = file) (isOpen : cursor.isOpen = true) :
    ∃ cursor' store', next (cursor, store) = .ok (cursor.left table).head? (cursor', store') ∧
      Reads table (cursor.left table).head?.toList cursor cursor' ∧ inv store' ∧
      (cursor.left table = [] → table.length ≤ cursor'.nextPage.toNat) := by
  unfold next
  rw [Action.bind_ok (requireOpen_ok isOpen store), Action.bind_ok (read_eq ..)]
  cases peeked : cursor.peeked with
  | some row =>
    have left_eq : (cursor.left table).head? = some row := by
      rw [TableCursor.left, pending, peeked]
      rfl
    rw [left_eq]
    refine ⟨{ cursor with peeked := none }, store, rfl,
      .ofPending rfl rfl rfl rfl (by rw [pending, pending, peeked]; rfl), here, fun none => ?_⟩
    rw [none] at left_eq
    cases left_eq
  | none =>
    obtain ⟨cursor', store', fetch_eq, reads, -, rest⟩ := h.fetchRow_ok here pool_eq file_eq peeked
    exact ⟨cursor', store', fetch_eq, reads, rest⟩

end TableFile.Serves

end RowStore
