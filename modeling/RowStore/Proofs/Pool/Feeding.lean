import RowStore.Proofs.Pool.Actions
import RowStore.Store.Cursor

/-!
# Rows given to a step

A cursor that gives every row to a step turns the page when the rows of the last one were given. A condition that the
step and the turning of pages keep up between them holds until the last page was given.
-/

namespace RowStore

/-- The end of an action meets the condition for its result, or the one for its failure. -/
def Leads {σ α : Type} (post : α → σ → Prop) (failed : Failure → σ → Prop) : EStateM.Result Failure σ α → Prop
  | .ok a s => post a s
  | .error failure s => failed failure s

theorem Leads.mono {σ α : Type} {post post' : α → σ → Prop} {failed failed' : Failure → σ → Prop}
    {result : EStateM.Result Failure σ α} (h : Leads post failed result) (weaker : ∀ a s, post a s → post' a s)
    (weaker' : ∀ failure s, failed failure s → failed' failure s) : Leads post' failed' result := by
  cases result with
  | ok a s => exact weaker a s h
  | error failure s => exact weaker' failure s h

theorem Leads.bind {σ α β : Type} {mid : α → σ → Prop} {post : β → σ → Prop} {failed : Failure → σ → Prop}
    {first : EStateM Failure σ α} {next : α → EStateM Failure σ β} {s : σ} (h : Leads mid failed (first s))
    (following : ∀ a s, mid a s → Leads post failed (next a s)) : Leads post failed ((first >>= next) s) := by
  cases run : first s with
  | ok a s' =>
    rw [run] at h
    rw [Action.bind_ok run]
    exact following a s' h
  | error failure s' =>
    rw [run] at h
    rw [Action.bind_error run]
    exact h

theorem Leads.discard {α : Type} {post : Unit → Store → Prop} {failed : Failure → Store → Prop} {action : Action α}
    {store : Store} (h : Leads (fun _ => post ()) failed (action store)) :
    Leads post failed (discard action store) := by
  cases run : action store with
  | ok a after =>
    rw [run] at h
    rw [Action.discard_ok run]
    exact h
  | error failure after =>
    rw [run] at h
    rw [Action.discard_error run]
    exact h

namespace TableCursor

variable {α σ : Type} {cursor : TableCursor} {store store' : Store}

/-! ## Steps of a cursor -/

theorem onStore_ok {action : Action α} {a : α} (h : action store = .ok a store') :
    onStore action (cursor, store) = .ok a (cursor, store') := by
  simp only [onStore, h]

theorem onStore_error {action : Action α} {failure : Failure} (h : action store = .error failure store') :
    onStore action (cursor, store) = .error failure (cursor, store') := by
  simp only [onStore, h]

theorem read_eq (cursor : TableCursor) (store : Store) : read (cursor, store) = .ok cursor (cursor, store) := rfl

theorem change_eq (f : TableCursor → TableCursor) (cursor : TableCursor) (store : Store) :
    change f (cursor, store) = .ok () (f cursor, store) := rfl

theorem requireOpen_ok (isOpen : cursor.isOpen = true) (store : Store) :
    requireOpen (cursor, store) = .ok () (cursor, store) := by
  unfold requireOpen
  rw [Action.bind_ok (read_eq ..), isOpen]
  rfl

/-! ## Turning a page -/

/-- The rows of a page, if there is such a page. -/
def pageRows? (pool : PoolId) (file : TableFile) (number : UInt32) : Action (Option (List Row)) := do
  if (← file.pageCount) ≤ number then return none
  let frame ← pool.fetch (file.pageId number)
  return some (← frame.page).rows

def turned (cursor : TableCursor) (rows : List Row) : TableCursor :=
  { cursor with current := rows, nextPage := cursor.nextPage + 1 }

theorem turn_eq (stop go : CursorAction α) (cursor : TableCursor) (store : Store) :
    (do
      if ← atEnd then stop
      else
        loadPage
        go : CursorAction α) (cursor, store) =
      match pageRows? cursor.pool cursor.file cursor.nextPage store with
      | .ok none store => stop (cursor, store)
      | .ok (some rows) store => go (cursor.turned rows, store)
      | .error failure store => .error failure (cursor, store) := by
  unfold atEnd pageRows?
  let ends (count : UInt32) : CursorAction Bool := return count ≤ cursor.nextPage
  cases counted : cursor.file.pageCount store with
  | error failure store₁ =>
    have ended : (onStore cursor.file.pageCount >>= ends) (cursor, store) = .error failure (cursor, store₁) :=
      Action.bind_error (onStore_error counted)
    rw [Action.bind_error ((Action.bind_ok (read_eq ..)).trans ended), Action.bind_error counted]
  | ok count store₁ =>
    have ended : (onStore cursor.file.pageCount >>= ends) (cursor, store) = ends count (cursor, store₁) :=
      Action.bind_ok (onStore_ok counted)
    rw [Action.bind_ok ((Action.bind_ok (read_eq ..)).trans ended), Action.bind_ok counted]
    by_cases past : count ≤ cursor.nextPage
    · simp only [past, decide_true, ite_true]
      rfl
    · simp only [past, decide_false, Bool.false_eq_true, ite_false]
      unfold loadPage
      simp only [bind_assoc]
      rw [Action.bind_ok (read_eq ..)]
      cases fetched : cursor.pool.fetch (cursor.file.pageId cursor.nextPage) store₁ with
      | error failure store₂ => rw [Action.bind_error (onStore_error fetched), Action.bind_error fetched]
      | ok frame store₂ =>
        rw [Action.bind_ok (onStore_ok fetched), Action.bind_ok fetched]
        cases paged : frame.page store₂ with
        | error failure store₃ => rw [Action.bind_error (onStore_error paged), Action.bind_error paged]
        | ok page store₃ =>
          rw [Action.bind_ok (onStore_ok paged), Action.bind_ok (change_eq ..), Action.bind_ok paged]
          rfl

/-! ## The rule -/

section Rule

variable {At : Nat → List Row → σ → Store → Prop} {done : σ → Store → Prop} {failed : Failure → Store → Prop}
  {step : σ → Row → Action σ} {pool : PoolId} {file : TableFile}

/-- The cursor stands before page `n` of the file, and the store meets a condition. -/
def Before (pool : PoolId) (file : TableFile) (n : Nat) (inv : Store → Prop) (s : TableCursor × Store) : Prop :=
  s.1.pool = pool ∧ s.1.file = file ∧ s.1.nextPage = UInt32.ofNat n ∧ inv s.2

variable (stepped : ∀ {n row rest acc store}, At n (row :: rest) acc store →
  Leads (At n rest) failed (step acc row store))

include stepped

theorem feedRows_leads {n : Nat} {rows : List Row} {acc : σ} {s : TableCursor × Store}
    (before : Before pool file n (At n rows acc) s) :
    Leads (fun acc => Before pool file n (At n [] acc)) (fun failure s => failed failure s.2)
      (feedRows step rows acc s) := by
  induction rows generalizing s acc with
  | nil => exact before
  | cons row rows ih =>
    obtain ⟨cursor, store⟩ := s
    obtain ⟨pool_eq, file_eq, number_eq, here⟩ := before
    have stepped' := stepped here
    unfold feedRows
    rw [Action.bind_ok (change_eq ..)]
    cases run : step acc row store with
    | ok acc' store' =>
      rw [run] at stepped'
      rw [Action.bind_ok (onStore_ok run)]
      exact ih ⟨pool_eq, file_eq, number_eq, stepped'⟩
    | error failure store' =>
      rw [run] at stepped'
      rw [Action.bind_error (onStore_error run)]
      exact stepped'

variable (turns : ∀ {n acc store}, n < UInt32.size → At n [] acc store →
    Leads (fun rows? store => rows?.elim (done acc store) fun rows => At (n + 1) rows acc store) failed
      (pageRows? pool file (UInt32.ofNat n) store))
  (last : ∀ {acc store}, At UInt32.size [] acc store → done acc store)

include turns last

theorem feedPages_leads {left n : Nat} {acc : σ} {s : TableCursor × Store}
    (before : Before pool file n (At n [] acc) s) (sum_eq : n + left = UInt32.size) :
    Leads (fun acc s => done acc s.2) (fun failure s => failed failure s.2) (feedPages step left acc s) := by
  induction left generalizing n acc s with
  | zero =>
    obtain ⟨-, -, -, here⟩ := before
    rw [Nat.add_zero] at sum_eq
    subst sum_eq
    exact last here
  | succ left ih =>
    obtain ⟨cursor, store⟩ := s
    obtain ⟨pool_eq, file_eq, number_eq, here⟩ := before
    have turned' := turns (by omega) here
    unfold feedPages
    rw [turn_eq, pool_eq, file_eq, number_eq]
    cases run : pageRows? pool file (UInt32.ofNat n) store with
    | error failure store' =>
      rw [run] at turned'
      exact turned'
    | ok rows? store' =>
      rw [run] at turned'
      cases rows? with
      | none => exact turned'
      | some rows =>
        have number_eq' : (cursor.turned rows).nextPage = UInt32.ofNat (n + 1) := by
          rw [UInt32.ofNat_add, ← number_eq]
          rfl
        have before' : Before pool file (n + 1) (At (n + 1) rows acc) (cursor.turned rows, store') :=
          ⟨pool_eq, file_eq, number_eq', turned'⟩
        exact (feedRows_leads stepped before').bind fun acc s before => ih before (by omega)

/-- A condition that each step keeps up for the rows that are left, and each turn of a page for the rows of that page,
holds of everything that an open cursor gives. -/
theorem feed_leads (cursor : TableCursor) (isOpen : cursor.isOpen = true) (pool_eq : cursor.pool = pool)
    (file_eq : cursor.file = file) {acc : σ} {store : Store}
    (here : At cursor.nextPage.toNat (cursor.peeked.toList ++ cursor.current) acc store) :
    Leads (fun acc s => done acc s.2) (fun failure s => failed failure s.2) (feed step acc (cursor, store)) := by
  have before : Before pool file cursor.nextPage.toNat
      (At cursor.nextPage.toNat (cursor.peeked.toList ++ cursor.current) acc)
      ({ cursor with peeked := none }, store) := ⟨pool_eq, file_eq, UInt32.ofNat_toNat.symm, here⟩
  have sum_eq : cursor.nextPage.toNat + cursor.pagesLeft = UInt32.size :=
    Nat.add_sub_cancel' (Nat.le_of_lt cursor.nextPage.toNat_lt)
  unfold feed
  rw [Action.bind_ok (requireOpen_ok isOpen store), Action.bind_ok (read_eq ..), Action.bind_ok (change_eq ..)]
  exact (feedRows_leads stepped before).bind fun acc s before => feedPages_leads stepped turns last before sum_eq

end Rule

end TableCursor

end RowStore
