import RowStore.Proofs.Pool.Feeding
import RowStore.Proofs.Pool.PlainTables
import RowStore.Proofs.Pool.Tidy

/-!
# Pre- and postconditions

What an action makes of the stores that meet a condition, put together from what its parts make of them. A scan keeps
whatever the fetching of pages keeps.
-/

namespace RowStore

variable {σ α β : Type} {pre failed : σ → Prop} {mid : α → σ → Prop} {post : β → σ → Prop}

/-- The end of an action meets the condition for its result, or the one for failures. -/
def Meets (post : α → σ → Prop) (failed : σ → Prop) : EStateM.Result Failure σ α → Prop
  | .ok a s => post a s
  | .error _ s => failed s

theorem Meets.mono {post' : β → σ → Prop} {failed' : σ → Prop} {result : EStateM.Result Failure σ β}
    (h : Meets post failed result) (ok : ∀ b s, post b s → post' b s) (error : ∀ s, failed s → failed' s) :
    Meets post' failed' result := by
  cases result with
  | ok b s => exact ok b s h
  | error failure s => exact error s h

theorem Meets.bind {first : EStateM Failure σ α} {next : α → EStateM Failure σ β} {s : σ}
    (h : Meets mid failed (first s)) (following : ∀ a s, mid a s → Meets post failed (next a s)) :
    Meets post failed ((first >>= next) s) := by
  cases run : first s with
  | ok a s' =>
    rw [run] at h
    rw [Action.bind_ok run]
    exact following a s' h
  | error failure s' =>
    rw [run] at h
    rw [Action.bind_error run]
    exact h

theorem Meets.bind_congr {first : EStateM Failure σ α} {next next' : α → EStateM Failure σ β} {s : σ}
    (h : Meets mid failed (first s)) (same : ∀ a s, mid a s → next a s = next' a s) :
    (first >>= next) s = (first >>= next') s := by
  cases run : first s with
  | ok a s' =>
    rw [run] at h
    rw [Action.bind_ok run, Action.bind_ok run]
    exact same a s' h
  | error failure s' => rw [Action.bind_error run, Action.bind_error run]

/-- From a state that meets `pre` the action leads to one that meets `post`, or fails in one that meets `failed`. -/
def Triple (pre : σ → Prop) (action : EStateM Failure σ α) (post : α → σ → Prop) (failed : σ → Prop) : Prop :=
  ∀ s, pre s → Meets post failed (action s)

/-- A condition that holds before the action holds after it, whether it fails or not. -/
abbrev Preserves (inv : σ → Prop) (action : EStateM Failure σ α) : Prop := Triple inv action (fun _ => inv) inv

namespace Triple

theorem pure {b : β} (h : ∀ s, pre s → post b s) : Triple pre (pure b) post failed := h

theorem fail {failure : Failure} (h : ∀ s, pre s → failed s) :
    Triple pre (throw failure : EStateM Failure σ β) post failed := h

theorem failThen {failure : Failure} {next : α → EStateM Failure σ β} (h : ∀ s, pre s → failed s) :
    Triple pre (throw failure >>= next) post failed := h

theorem bind {first : EStateM Failure σ α} {next : α → EStateM Failure σ β} (h : Triple pre first mid failed)
    (following : ∀ a, Triple (mid a) (next a) post failed) : Triple pre (first >>= next) post failed :=
  fun s met => (h s met).bind following

theorem map {first : EStateM Failure σ α} {f : α → β} (h : Triple pre first (fun a => post (f a)) failed) :
    Triple pre (first >>= fun a => Pure.pure (f a)) post failed := h.bind fun _ => pure fun _ met => met

section Stores

variable {pre failed : Store → Prop} {mid : α → Store → Prop} {action : Action α}

theorem discard {post : Unit → Store → Prop} (h : Triple pre action (fun _ => post ()) failed) :
    Triple pre (discard action) post failed := by
  intro s met
  have met' := h s met
  cases run : action s with
  | ok a s' =>
    rw [run] at met'
    rw [Action.discard_ok run]
    exact met'
  | error failure s' =>
    rw [run] at met'
    rw [Action.discard_error run]
    exact met'

theorem ofLooks (h : action.Looks) : Preserves pre action := by
  intro s met
  rcases h s with ⟨failure, failed⟩ | ⟨a, run⟩
  · rw [failed]
    exact met
  · rw [run]
    exact met

end Stores

end Triple

theorem Meets.after {inv : Store → Prop} {action : Action α} {store : Store}
    (h : Meets (fun _ => inv) inv (action store)) : inv (action.after store) := by
  unfold Action.after
  cases run : action store <;> rw [run] at h <;> exact h

/-! ## Scans -/

section Scans

variable {pool : PoolId} {inv : Store → Prop} (fetched : ∀ id, Preserves inv (pool.fetch id))

include fetched

theorem TableCursor.pageRows?_keeps (file : TableFile) (number : UInt32) :
    Preserves inv (pageRows? pool file number) := by
  apply (Triple.ofLooks file.pageCount_looks).bind
  intro count
  split
  · exact .pure fun _ h => h
  · apply (fetched _).bind
    intro frame
    exact .map (.ofLooks frame.page_looks)

theorem TableCursor.feed_keeps {step : σ → Row → Action σ} (stepped : ∀ acc row, Preserves inv (step acc row))
    (cursor : TableCursor) (pool_eq : cursor.pool = pool) (acc : σ) {store : Store} (met : inv store) :
    Meets (fun _ s => inv s.2) (fun s => inv s.2) (feed step acc (cursor, store)) := by
  cases isOpen : cursor.isOpen with
  | false =>
    unfold feed requireOpen
    simp only [bind_assoc]
    rw [Action.bind_ok (read_eq ..), isOpen]
    exact met
  | true =>
    let At (_ : Nat) (_ : List Row) (_ : σ) : Store → Prop := inv
    have stepped' : ∀ {n row rest acc store}, At n (row :: rest) acc store →
        Leads (At n rest) (fun _ => inv) (step acc row store) := by
      intro n row rest acc store met
      have met' := stepped acc row store met
      cases run : step acc row store <;> rw [run] at met' <;> exact met'
    have turns : ∀ {n acc store}, n < UInt32.size → At n [] acc store →
        Leads (fun rows? store => rows?.elim (inv store) fun rows => At (n + 1) rows acc store) (fun _ => inv)
          (pageRows? pool cursor.file (UInt32.ofNat n) store) := by
      intro n acc store _ met
      have met' := pageRows?_keeps fetched cursor.file (UInt32.ofNat n) store met
      cases run : pageRows? pool cursor.file (UInt32.ofNat n) store with
      | error failure after =>
        rw [run] at met'
        exact met'
      | ok rows? after =>
        rw [run] at met'
        cases rows? <;> exact met'
    have last : ∀ {acc store}, At UInt32.size [] acc store → inv store := fun met => met
    have begun : At cursor.nextPage.toNat (cursor.peeked.toList ++ cursor.current) acc store := met
    have fed : Leads (fun _ s => inv s.2) (fun _ s => inv s.2) (feed step acc (cursor, store)) :=
      feed_leads @stepped' @turns @last cursor isOpen pool_eq rfl begun
    cases run : feed step acc (cursor, store) <;> rw [run] at fed <;> exact fed

theorem PoolId.scan_keeps (table : TableId) : Preserves inv (pool.scan table) := by
  apply (Triple.ofLooks (Store.lookUp_looks _)).bind
  intro file store met
  have pushed : ∀ (rows : Array Row) (row : Row), Preserves inv (return rows.push row : Action (Array Row)) :=
    fun _ _ => .pure fun _ met => met
  have fed := TableCursor.feed_keeps fetched pushed (TableCursor.new file pool).opened rfl #[] met
  have drained : Meets (fun _ s => inv s.2) (fun s => inv s.2)
      (TableCursor.drain ((TableCursor.new file pool).opened, store)) := by
    unfold TableCursor.drain
    cases run : TableCursor.feed (fun rows row => return rows.push row) (#[] : Array Row)
        ((TableCursor.new file pool).opened, store) with
    | ok rows s =>
      rw [run] at fed
      rw [Action.bind_ok run]
      exact fed
    | error failure s =>
      rw [run] at fed
      rw [Action.bind_error run]
      exact fed
  cases run : TableCursor.drain ((TableCursor.new file pool).opened, store) with
  | ok rows s =>
    rw [run] at drained
    simp only [run]
    exact drained
  | error failure s =>
    rw [run] at drained
    simp only [run]
    exact drained

end Scans

end RowStore
