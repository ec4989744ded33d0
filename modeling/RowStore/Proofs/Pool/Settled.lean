import RowStore.Proofs.Pool.Following

/-!
# Tables that keep their schemas

While nothing is registered or forgotten, pages in memory that have the schema of their table keep it. The rows that are
read of a table are rows of its schema then, and a row of that schema is never refused for what it is.
-/

namespace RowStore

/-! ## Rows of a schema -/

/-- The row has the schema, and a value of the right type for each of its columns. -/
structure Row.Of (row : Row) (schema : Schema) : Prop where
  schema_eq : row.schema = schema
  conforms : row.Conforms

theorem Row.of_ofValues {schema : Schema} {values : List Value} {row : Row} (h : ofValues schema values = .ok row) :
    row.Of schema := by
  refine ⟨?_, conforms_ofValues h⟩
  unfold ofValues at h
  split at h
  · cases h
  · split at h
    · cases h
    · cases h
      rfl

namespace Page

variable {page : Page}

theorem Formed.of_rows (h : page.Formed) : ∀ row ∈ page.rows, row.Of page.schema := by
  intro row mem
  obtain ⟨slot, slot_mem, live⟩ := List.mem_filterMap.mp mem
  unfold Slot.live? at live
  split at live
  · obtain ⟨schema_eq, conforms⟩ := h slot slot_mem row live
    exact ⟨schema_eq, conforms⟩
  · cases live

theorem eq_of_insert_error {row : Row} {e : StoreError} (schema_eq : row.schema = page.schema)
    (h : page.insert row = .error e) : ∃ id, e = .pageFull id := by
  unfold insert at h
  rw [if_neg (not_not_intro schema_eq)] at h
  split at h
  · cases h
    exact ⟨_, rfl⟩
  · cases h

theorem lasting_formed : Lasting Formed Row.Conforms where
  decode := formed_of_decode
  markDirty _ formed := formed
  insert := by
    intro page page' row rowId formed conforms inserted
    obtain ⟨schema_eq, index, -, -, rfl⟩ := insert_eq_ok inserted
    intro slot mem
    rcases List.mem_or_eq_of_mem_set mem with old | rfl
    · exact formed slot old
    · rintro _ ⟨⟩
      exact ⟨schema_eq, conforms⟩
  delete := by
    intro page page' row formed deleted
    obtain ⟨rowId, -, -, -, rfl⟩ := delete_eq_ok deleted
    intro slot mem
    rcases List.mem_or_eq_of_mem_set mem with old | rfl
    · exact formed slot old
    · rintro _ ⟨⟩

end Page

/-! ## Failures about types -/

/-- The request failed because a row or a value is not of the type that it should be, or a row has too few values. -/
inductive Failure.OfTypes : Failure → Prop where
  | schemaMismatch (expected found : String) : OfTypes (.refused (.schemaMismatch expected found))
  | typeMismatch (expected found : String) : OfTypes (.refused (.typeMismatch expected found))
  | columnOutOfRange (index arity : Nat) : OfTypes (.refused (.columnOutOfRange index arity))

theorem Failure.not_ofTypes {failure : Failure} (h : ∀ e, failure = .refused e → e.OfPages) : ¬failure.OfTypes := by
  intro ofTypes
  cases ofTypes <;> cases h _ rfl

/-! ## Stores -/

/-- The pages in memory have the schemas of the files that are registered for their tables. -/
def Store.Current (store : Store) : Prop :=
  ∀ (pool : PoolId) (id : PageId) (frame : FrameId) (page : Page) (file : TableFile), pool.Resident id frame store →
    store.frames[frame.index]? = some page → store.catalog.file id.table = .ok file → page.schema = file.schema

/-- The store has this catalog, and its pages are well-formed and have the schemas of their tables. -/
structure Store.Settled (catalog : Catalog) (store : Store) : Prop where
  tidy : store.Tidy
  keyed : catalog.Keyed
  catalog_eq : store.catalog = catalog
  formed : ∀ (frame : FrameId) (page : Page), store.frames[frame.index]? = some page → page.Formed
  current : store.Current

/-- An action failed, for no reason of types, and left the store settled. -/
def Store.Spared (catalog : Catalog) (failure : Failure) (store : Store) : Prop :=
  store.Settled catalog ∧ ¬failure.OfTypes

variable {catalog : Catalog} {catalogs : List Catalog} {store after : Store} {pool : PoolId} {id : PageId}
  {file : TableFile} {α : Type} {action : Action α}

theorem Store.Lived.settled (lived : store.Lived Page.Formed Row.Conforms catalogs) (current : store.Current) :
    store.Settled store.catalog :=
  have chronicled := lived.chronicled Page.lasting_formed
  ⟨chronicled.tidy, chronicled.keyed _ chronicled.current, rfl, chronicled.frames, current⟩

namespace Store.Settled

theorem evolves (h : store.Settled catalog) (tidy : after.Tidy) (evolved : store.Evolves Page.Formed after) :
    after.Settled catalog where
  tidy := tidy
  keyed := h.keyed
  catalog_eq := evolved.catalog_eq.trans h.catalog_eq
  formed := evolved.frames_good h.formed
  current pool id frame page file resident page_eq found := by
    rw [evolved.catalog_eq] at found
    rcases evolved.resident pool id frame resident with before | ⟨file', page', found', page_eq', is⟩
    · obtain ⟨old, old_eq⟩ := h.tidy.page_of_resident before
      obtain ⟨page', page_eq', becomes, -⟩ := evolved.old frame old old_eq
      cases page_eq.symm.trans page_eq'
      exact becomes.schema_eq.trans (h.current pool id frame old file before old_eq found)
    · cases page_eq.symm.trans page_eq'
      cases found.symm.trans found'
      exact is.schema_eq

theorem keeps (h : store.Settled catalog) (steady : action.Steady Page.Formed) :
    Leads (fun _ => Settled catalog) (fun _ => Settled catalog) (action store) := by
  obtain ⟨tidy, evolved⟩ := steady.leaves h.tidy
  have settled := h.evolves tidy evolved
  unfold Action.after at settled
  cases run : action store <;> rw [run] at settled <;> exact settled

theorem leads (h : store.Settled catalog) (steady : action.Steady Page.Formed)
    (spares : ∀ failure after, action store = .error failure after → ¬failure.OfTypes) :
    Leads (fun _ => Settled catalog) (Spared catalog) (action store) := by
  have kept := h.keeps steady
  cases run : action store with
  | ok a after =>
    rw [run] at kept
    exact kept
  | error failure after =>
    rw [run] at kept
    exact ⟨kept, spares failure after run⟩

theorem leads_of_pages (h : store.Settled catalog) (steady : action.Steady Page.Formed)
    (within : action.Within StoreError.OfPages) : Leads (fun _ => Settled catalog) (Spared catalog) (action store) := by
  refine h.leads steady fun failure after failed => Failure.not_ofTypes fun e refused => ?_
  have ends := within store
  rw [failed] at ends
  exact ends.2 e refused

/-! ## Reading pages -/

theorem fetch (h : store.Settled catalog) (found : catalog.file id.table = .ok file) (pool : PoolId) :
    Leads (fun frame after => after.Settled catalog ∧
        ∃ page, after.frames[frame.index]? = some page ∧ page.Formed ∧ page.schema = file.schema)
      (Spared catalog) (pool.fetch id store) := by
  have led := h.leads_of_pages (PoolId.fetch_steady Page.lasting_formed pool id) (pool.fetch_within id)
  rcases PoolId.fetch_cases h.tidy pool id with ⟨failure, -, after, failed, -⟩ | ⟨frame, -, after, run, -, -, resident⟩
  · rw [failed] at led ⊢
    exact led
  · rw [run] at led ⊢
    have settled : after.Settled catalog := led
    obtain ⟨page, page_eq⟩ := settled.tidy.page_of_resident resident
    rw [← settled.catalog_eq] at found
    exact ⟨settled, page, page_eq, settled.formed frame page page_eq,
      settled.current pool id frame page file resident page_eq found⟩

theorem pageRows? (h : store.Settled catalog) (found : catalog.file file.id = .ok file) (pool : PoolId)
    (number : UInt32) :
    Leads (fun rows? after => after.Settled catalog ∧ ∀ rows, rows? = some rows → ∀ row ∈ rows, row.Of file.schema)
      (Spared catalog) (TableCursor.pageRows? pool file number store) := by
  unfold TableCursor.pageRows?
  have counted := h.leads_of_pages (.ofLooks file.pageCount_looks) file.pageCount_within
  refine counted.bind fun count store settled => ?_
  split
  · exact ⟨settled, nofun⟩
  · have found' : catalog.file (file.pageId number).table = .ok file := found
    refine (settled.fetch found' pool).bind fun frame after read => ?_
    obtain ⟨settled', page, page_eq, formed, schema_eq⟩ := read
    rw [Action.bind_ok (FrameId.page_eq page_eq)]
    refine ⟨settled', fun rows same row mem => ?_⟩
    cases same
    exact schema_eq ▸ formed.of_rows row mem

/-! ## Storing rows -/

variable {txn : TxnId} {row : Row}

theorem insertOn (h : store.Settled catalog) (found : catalog.file id.table = .ok file) (of : row.Of file.schema) :
    Leads (fun _ => Settled catalog) (Spared catalog) (TableFile.insertOn pool txn id row store) := by
  refine h.leads (TableFile.insertOn_steady Page.lasting_formed of.conforms) fun failure after failed => ?_
  have fetched := h.fetch found pool
  unfold TableFile.insertOn PoolId.mutate at failed
  rcases PoolId.alter_cases h.tidy pool id _ with
    ⟨failure', -, after', failed', -, -, -, fetch_eq⟩ | ⟨frame, page, -, middle, -, -, -, page_eq, fetch_eq, run⟩
  · cases failed.symm.trans failed'
    rw [fetch_eq] at fetched
    exact fetched.2
  · rw [fetch_eq] at fetched
    obtain ⟨-, page', page_eq', -, schema_eq⟩ := fetched
    cases page_eq.symm.trans page_eq'
    rw [run] at failed
    -- That the page is full is no failure.
    cases inserted : page.insert row with
    | ok placed =>
      simp only [PoolId.allOrNothing, inserted] at failed
      cases failed
    | error e =>
      obtain ⟨full, rfl⟩ := Page.eq_of_insert_error (of.schema_eq.trans schema_eq.symm) inserted
      simp only [PoolId.allOrNothing, inserted] at failed
      cases failed

theorem insertAmong (h : store.Settled catalog) (found : catalog.file file.id = .ok file) (of : row.Of file.schema)
    (left : Nat) (number : UInt32) :
    Leads (fun _ => Settled catalog) (Spared catalog) (file.insertAmong pool txn row left number store) := by
  induction left generalizing number store with
  | zero => exact h
  | succ left ih =>
    have found' : catalog.file (file.pageId number).table = .ok file := found
    refine (h.insertOn found' of).bind fun stored after settled => ?_
    cases stored with
    | none => exact ih settled (number + 1)
    | some stored => exact settled

theorem insertAppending (h : store.Settled catalog) (found : catalog.file file.id = .ok file) (of : row.Of file.schema)
    (left : Nat) :
    Leads (fun _ => Settled catalog) (Spared catalog) (file.insertAppending pool txn row left store) := by
  induction left generalizing store with
  | zero => exact ⟨h, nofun⟩
  | succ left ih =>
    refine (h.leads_of_pages file.appendPage_steady file.appendPage_within).bind fun number middle settled => ?_
    have found' : catalog.file (file.pageId number).table = .ok file := found
    refine (settled.insertOn found' of).bind fun stored after settled' => ?_
    cases stored with
    | none => exact ih settled'
    | some stored => exact settled'

theorem insert (h : store.Settled catalog) {table : TableId} (found : catalog.file table = .ok file)
    (of : row.Of file.schema) :
    Leads (fun _ => Settled catalog) (Spared catalog) (pool.insert txn table row store) := by
  have found' : catalog.file file.id = .ok file := by rw [h.keyed table file found, found]
  unfold PoolId.insert
  rw [← h.catalog_eq] at found
  rw [Action.bind_ok (Store.lookUp_ok found)]
  unfold TableFile.insert
  rw [if_neg (not_not_intro of.schema_eq)]
  have counted := h.leads_of_pages (.ofLooks file.pageCount_looks) file.pageCount_within
  refine counted.bind fun count middle settled => (settled.insertAmong found' of count.toNat 0).bind ?_
  intro stored middle' settled'
  cases stored with
  | none => exact settled'.insertAppending found' of UInt32.size
  | some stored => exact settled'

end Store.Settled

end RowStore
