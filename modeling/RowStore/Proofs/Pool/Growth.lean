import RowStore.Proofs.Pool.InSync
import RowStore.Proofs.Pool.Triples

/-!
# What no call of a pool does

Pages are fetched, rows are stored and rows are removed. On the way files get longer and never shorter, whatever is on
the disk and in memory. Many things can go wrong, but the reasons to refuse are few, and that something is not open is
none of them.
-/

namespace RowStore

/-! ## Longer files -/

/-- Every file was there before, and was not longer. -/
def Store.Extends (before after : Store) : Prop :=
  ∀ place bytes', after.disk.read place = .ok bytes' →
    ∃ bytes, before.disk.read place = .ok bytes ∧ bytes.length ≤ bytes'.length

namespace Store.Extends

variable {before middle after : Store}

theorem ofDisk (disk_eq : after.disk = before.disk) : before.Extends after :=
  fun _ bytes' read_eq => ⟨bytes', disk_eq ▸ read_eq, Nat.le_refl _⟩

theorem refl (store : Store) : store.Extends store := ofDisk rfl

theorem trans (h : before.Extends middle) (h' : middle.Extends after) : before.Extends after := by
  intro place bytes' read_eq
  obtain ⟨bytes₁, read_eq₁, le₁⟩ := h' place bytes' read_eq
  obtain ⟨bytes, read_eq₂, le₂⟩ := h place bytes₁ read_eq₁
  exact ⟨bytes, read_eq₂, Nat.le_trans le₂ le₁⟩

theorem hasRoom (h : before.Extends after) {files : List TableFile} (room : after.HasRoom files) :
    before.HasRoom files := by
  intro file mem
  obtain ⟨bytes', read_eq, lt⟩ := room file mem
  obtain ⟨bytes, read_eq', le⟩ := h file.place bytes' read_eq
  exact ⟨bytes, read_eq', Nat.lt_of_le_of_lt le lt⟩

end Store.Extends

theorem Bytes.le_length_overwrite (bytes : Bytes) (offset : Nat) (data : Bytes) :
    bytes.length ≤ (bytes.overwrite offset data).length := by
  by_cases empty : data.length = 0
  · have same : bytes.overwrite offset data = bytes := if_pos empty
    exact Nat.le_of_eq (congrArg length same.symm)
  · rw [length_overwrite _ _ empty]
    exact Nat.le_max_left _ _

theorem Store.Extends.writeAt {before after : Store} {place : Place} {offset : Nat} {data : Bytes}
    (write_eq : before.disk.writeAt place offset data = .ok after.disk) : before.Extends after := by
  intro other bytes' read_eq
  by_cases same : other = place
  · subst same
    cases here : before.disk.read other with
    | error e =>
      rw [Disk.writeAt, here] at write_eq
      cases write_eq
    | ok bytes =>
      rw [Disk.read_writeAt_self here write_eq] at read_eq
      cases read_eq
      exact ⟨bytes, rfl, bytes.le_length_overwrite offset data⟩
  · rw [Disk.read_writeAt_of_ne write_eq same] at read_eq
    exact ⟨bytes', read_eq, Nat.le_refl _⟩

/-! ## Reasons to refuse -/

/-- Reading and writing pages is refused for these reasons. -/
inductive StoreError.OfPages : StoreError → Prop where
  | fileSystem : OfPages .fileSystem
  | tableNotFound (table : TableId) : OfPages (.tableNotFound table)
  | pageOutOfRange (page : PageId) : OfPages (.pageOutOfRange page)
  | pageCorrupt (page : PageId) (detail : String) : OfPages (.pageCorrupt page detail)
  | rowNotOnPage (page : PageId) : OfPages (.rowNotOnPage page)

/-- Storing and removing rows is refused for these reasons. -/
inductive StoreError.OfRows : StoreError → Prop where
  | ofPages {e : StoreError} (h : e.OfPages) : OfRows e
  | schemaMismatch (expected found : String) : OfRows (.schemaMismatch expected found)
  | rowNotStored : OfRows .rowNotStored
  | slotEmpty (page : PageId) (slot : UInt16) : OfRows (.slotEmpty page slot)

/-- The action makes no file shorter, and is refused for no other reason. -/
def Action.Within {α : Type} (errors : StoreError → Prop) (action : Action α) : Prop :=
  ∀ store, Leads (fun _ => store.Extends)
    (fun failure after => store.Extends after ∧ ∀ e, failure = .refused e → errors e) (action store)

/-- The action makes no file shorter, and is never refused because something is not open. -/
def Action.Tame {α : Type} (action : Action α) : Prop :=
  ∀ store, Leads (fun _ => store.Extends)
    (fun failure after => store.Extends after ∧ failure ≠ .refused .notOpen) (action store)

namespace Action.Within

variable {α β : Type} {errors errors' : StoreError → Prop} {action : Action α} {next : α → Action β}

theorem mono (h : action.Within errors) (weaker : ∀ e, errors e → errors' e) : action.Within errors' := fun store =>
  (h store).mono (fun _ _ extended => extended)
    fun _ _ ⟨extended, refused⟩ => ⟨extended, fun e same => weaker e (refused e same)⟩

theorem tame (h : action.Within errors) (other : ¬errors .notOpen) : action.Tame := fun store =>
  (h store).mono (fun _ _ extended => extended)
    fun _ _ ⟨extended, refused⟩ => ⟨extended, fun same => other (refused _ same)⟩

theorem bind (first : action.Within errors) (following : ∀ a, (next a).Within errors) :
    (action >>= next).Within errors := by
  intro store
  have start := (first store).mono (fun _ _ extended => extended) fun _ _ h => h
  refine start.bind fun a middle extended => ?_
  exact (following a middle).mono (fun _ _ extended' => extended.trans extended')
    fun _ _ ⟨extended', refused⟩ => ⟨extended.trans extended', refused⟩

theorem pure (a : α) : Within errors (pure a) := fun store => .refl store

theorem refuse {e : StoreError} (h : errors e) : Within errors (fail (.refused e) : Action α) :=
  fun store => ⟨.refl store, fun _ same => by cases same; exact h⟩

theorem abort (cause : Abort) : Within errors (fail (.aborted cause) : Action α) :=
  fun store => ⟨.refl store, fun _ same => by cases same⟩

theorem refuseThen {e : StoreError} (h : errors e) : Within errors (fail (.refused e) >>= next) :=
  fun store => ⟨.refl store, fun _ same => by cases same; exact h⟩

theorem attempt {result : Except Failure α} (h : ∀ e, result = .error (.refused e) → errors e) :
    (attempt result).Within errors := by
  cases result with
  | ok a => exact pure a
  | error failure => exact fun store => ⟨.refl store, fun e same => h e (congrArg Except.error same)⟩

theorem check {result : Except StoreError α} (h : ∀ e, result = .error e → errors e) :
    (check result).Within errors := by
  cases result with
  | ok a => exact pure a
  | error e => exact refuse (h e rfl)

theorem guard (result : Except Abort α) : (guard result).Within errors := by
  cases result with
  | ok a => exact pure a
  | error cause => exact abort cause

theorem discard (h : action.Within errors) : (discard action).Within errors := fun store => (h store).discard

theorem get : Within errors (get : Action Store) := fun store => .refl store

theorem modify {change : Store → Store} (disk_eq : ∀ store, (change store).disk = store.disk) :
    Within errors (modify change : Action Unit) := fun store => .ofDisk (disk_eq store)

end Action.Within

open RowStore.Action (Within)

open RowStore.StoreError (OfPages OfRows)

variable {α : Type} {errors : StoreError → Prop}

/-! ## Parts of calls -/

theorem FrameId.page_within (frame : FrameId) : frame.page.Within errors := by
  apply Within.get.bind
  intro store
  cases store.frames[frame.index]? with
  | none => exact .abort _
  | some page => exact .pure page

theorem FrameId.setPage_within (frame : FrameId) (page : Page) : (frame.setPage page).Within errors :=
  .modify fun _ => rfl

theorem PoolId.pool_within (pool : PoolId) : pool.pool.Within errors := by
  apply Within.get.bind
  intro store
  cases store.pools[pool.index]? with
  | none => exact .abort _
  | some kept => exact .pure kept

theorem PoolId.onCache_within (pool : PoolId)
    (change : Cache PageId FrameId → Except Abort (Cache PageId FrameId × α)) :
    (pool.onCache change).Within errors := by
  apply pool.pool_within.bind
  intro kept
  apply (Within.guard _).bind
  rintro ⟨cache, a⟩
  apply Within.bind
  · exact .modify fun _ => rfl
  · exact fun _ => .pure a

theorem Catalog.eq_of_file_error {catalog : Catalog} {table : TableId} {e : StoreError}
    (h : catalog.file table = .error e) : e = .tableNotFound table := by
  unfold Catalog.file Catalog.table at h
  cases here : catalog.tables.get? table with
  | none =>
    rw [here] at h
    cases h
    rfl
  | some known =>
    rw [here] at h
    cases h

theorem Store.lookUp_file_within (table : TableId) :
    (Store.lookUp fun catalog => catalog.file table).Within OfPages := by
  apply Within.get.bind
  intro store
  exact .check fun e missing => Catalog.eq_of_file_error missing ▸ .tableNotFound table

theorem Store.addFrame_within (page : Page) : (Store.addFrame page).Within errors := fun _ => .ofDisk rfl

theorem Disk.eq_of_read_error {disk : Disk} {place : Place} {e : StoreError} (h : disk.read place = .error e) :
    e = .fileSystem := by
  unfold read at h
  cases here : disk.files.get? place <;> rw [here] at h <;> cases h
  rfl

theorem Disk.eq_of_writeAt_error {disk : Disk} {place : Place} {offset : Nat} {data : Bytes} {e : StoreError}
    (h : disk.writeAt place offset data = .error e) : e = .fileSystem := by
  unfold writeAt at h
  cases read_eq : disk.read place with
  | error e' =>
    rw [read_eq] at h
    cases h
    exact eq_of_read_error read_eq
  | ok bytes =>
    rw [read_eq] at h
    dsimp only at h
    split at h <;> cases h
    rfl

namespace TableFile

variable (file : TableFile)

theorem bytes_within : file.bytes.Within OfPages := by
  apply Within.get.bind
  intro store
  exact .check fun e missing => Disk.eq_of_read_error missing ▸ .fileSystem

theorem pageCount_within : file.pageCount.Within OfPages := file.bytes_within.bind fun _ => .pure _

theorem count_within (change : Meter → Meter) : (file.count change).Within errors := .modify fun _ => rfl

theorem ofPages_of_pageBytes {number : UInt32} {bytes : Bytes} {e : StoreError}
    (h : file.pageBytes number bytes = .error (.refused e)) : e.OfPages := by
  unfold pageBytes at h
  split at h
  · cases h
  · split at h
    · cases h
      exact .pageOutOfRange _
    · cases h

end TableFile

namespace Page

theorem ofPages_of_readSlots {id : PageId} {schema : Schema} {index : Nat} {flags : List Bool} {bytes : List UInt8}
    {done : List Slot} {e : StoreError} (h : readSlots id schema index flags bytes done = .error e) : e.OfPages := by
  induction flags generalizing index bytes done with
  | nil => cases h
  | cons used flags ih =>
    unfold readSlots at h
    cases slot_eq : readSlot id schema index used (bytes.take schema.width) with
    | ok slot =>
      rw [slot_eq] at h
      exact ih h
    | error e' =>
      rw [slot_eq] at h
      cases h
      unfold readSlot at slot_eq
      split at slot_eq
      · split at slot_eq
        · cases slot_eq
        · cases slot_eq
          exact .pageCorrupt _ _
      · cases slot_eq

theorem ofPages_of_decode {id : PageId} {schema : Schema} {bytes : Bytes} {e : StoreError}
    (h : decode id schema bytes = .error (.refused e)) : e.OfPages := by
  unfold decode at h
  dsimp only at h
  split at h
  · cases h
  · split at h
    · cases h
      exact .pageCorrupt _ _
    · unfold readContent at h
      dsimp only at h
      split at h
      · next read_eq =>
        cases h
        exact ofPages_of_readSlots read_eq
      · cases h

theorem ofRows_of_insert {page : Page} {row : Row} {e : StoreError} (h : page.insert row = .error e) :
    (∃ id, e = .pageFull id) ∨ e.OfRows := by
  unfold insert at h
  split at h
  · cases h
    exact .inr (.schemaMismatch _ _)
  · split at h
    · cases h
      exact .inl ⟨_, rfl⟩
    · cases h

theorem ofRows_of_delete {page : Page} {row : Row} {e : StoreError} (h : page.delete row = .error e) : e.OfRows := by
  unfold delete at h
  cases id_eq : row.id with
  | none =>
    rw [id_eq] at h
    cases h
    exact .rowNotStored
  | some id =>
    rw [id_eq] at h
    dsimp only at h
    split at h
    · cases h
      exact .ofPages (.rowNotOnPage _)
    · split at h
      · cases h
        exact .slotEmpty _ _
      · cases h

end Page

namespace TableFile

variable (file : TableFile)

theorem readPage_within (number : UInt32) : (file.readPage number).Within OfPages := by
  apply file.bytes_within.bind
  intro bytes
  apply (Within.attempt fun e => file.ofPages_of_pageBytes).bind
  intro part
  apply (file.count_within _).bind
  intro _
  exact .attempt fun e => Page.ofPages_of_decode

theorem writeBytes_within (number : UInt32) (data : Bytes) : (file.writeBytes number data).Within OfPages := by
  intro store
  unfold writeBytes
  cases offset_eq : (file.pageId number).offset file.pageSize with
  | error cause =>
    rw [Action.bind_error (Action.guard_apply_error rfl store)]
    exact ⟨.refl store, fun e same => by cases same⟩
  | ok offset =>
    rw [Action.bind_ok (Action.guard_apply_ok rfl store), Action.bind_ok (Action.get_apply store)]
    cases write_eq : store.disk.writeAt file.place offset data with
    | error e =>
      rw [Action.bind_error (Action.check_apply_error rfl store)]
      refine ⟨.refl store, fun e' same => ?_⟩
      cases same
      exact Disk.eq_of_writeAt_error write_eq ▸ .fileSystem
    | ok disk =>
      rw [Action.bind_ok (Action.check_apply_ok rfl store)]
      exact Store.Extends.writeAt write_eq

theorem writePage_within (page : Page) : (file.writePage page).Within OfPages := by
  unfold writePage
  split
  · exact .refuseThen (.rowNotOnPage _)
  · exact (Within.guard _).bind fun data => file.writeBytes_within page.id.number data

theorem appendPage_within : file.appendPage.Within OfPages := by
  apply file.pageCount_within.bind
  intro number
  apply (Within.guard _).bind
  intro data
  exact (file.writeBytes_within number data).bind fun _ => .pure number

end TableFile

namespace PoolId

variable (pool : PoolId) (id : PageId)

theorem writeBack_within (frame : FrameId) : (writeBack id frame).Within OfPages := by
  apply frame.page_within.bind
  intro page
  split
  · apply (Store.lookUp_file_within id.table).bind
    intro file
    apply (file.writePage_within page).bind
    intro _
    exact (frame.setPage_within _).bind fun _ => .pure true
  · exact .pure false

theorem writeBackEvicted_within (evicted : Option (PageId × FrameId)) : (writeBackEvicted evicted).Within OfPages := by
  cases evicted with
  | none => exact .pure ()
  | some entry => exact (writeBack_within entry.1 entry.2).discard

theorem load_within : (pool.load id).Within OfPages := by
  apply (Store.lookUp_file_within id.table).bind
  intro file
  apply (file.readPage_within id.number).bind
  intro page
  apply (Store.addFrame_within page).bind
  intro frame
  apply (pool.onCache_within _).bind
  rintro ⟨frame, evicted⟩
  exact (writeBackEvicted_within evicted).bind fun _ => .pure frame

theorem fetch_within : (pool.fetch id).Within OfPages := by
  apply (pool.onCache_within _).bind
  intro found
  cases found with
  | some frame => exact .pure frame
  | none => exact pool.load_within id

theorem alter_within (pages : ∀ e : StoreError, e.OfPages → errors e) {work : Page → Page × Except Failure α}
    (refused : ∀ page e, (work page).2 = .error (.refused e) → errors e) : (pool.alter id work).Within errors := by
  apply ((pool.fetch_within id).mono pages).bind
  intro frame
  apply pool.pool_within.bind
  intro kept
  apply (Within.guard _).bind
  intro resident
  split
  · apply frame.page_within.bind
    intro page
    have refused := refused page
    generalize work page = done at refused
    exact (frame.setPage_within done.1).bind fun _ => .attempt refused
  · exact .abort _

theorem mutate_within (pages : ∀ e : StoreError, e.OfPages → errors e) {change : Page → Except Failure (Page × α)}
    (refused : ∀ page e, change page = .error (.refused e) → errors e) : (pool.mutate id change).Within errors := by
  refine pool.alter_within id pages fun page e failed => ?_
  unfold allOrNothing at failed
  cases change_eq : change page with
  | ok changed =>
    rw [change_eq] at failed
    cases failed
  | error failure =>
    rw [change_eq] at failed
    cases failed
    exact refused page e change_eq

/-! ## Flushing and giving up -/

theorem writeBackAll_within (entries : List (PageId × FrameId)) : (writeBackAll entries).Within OfPages := by
  induction entries with
  | nil => exact .pure ()
  | cons entry entries ih => exact (writeBack_within entry.1 entry.2).discard.bind fun _ => ih

theorem writeBackOf_within (txn : TxnId) (entries : List (PageId × FrameId)) :
    (writeBackOf txn entries).Within OfPages := by
  induction entries with
  | nil => exact .pure ()
  | cons entry entries ih =>
    apply entry.2.page_within.bind
    intro page
    split
    · exact (writeBack_within entry.1 entry.2).discard.bind fun _ => ih
    · exact ih

theorem flushPage_within : (pool.flushPage id).Within OfPages := by
  apply (pool.onCache_within _).bind
  intro found
  cases found with
  | some frame => exact writeBack_within id frame
  | none => exact .pure false

theorem flushAll_within : pool.flushAll.Within OfPages := by
  apply pool.pool_within.bind
  intro kept
  exact (Within.guard _).bind writeBackAll_within

theorem flushTxn_within (txn : TxnId) : (pool.flushTxn txn).Within OfPages := by
  apply pool.pool_within.bind
  intro kept
  exact (Within.guard _).bind (writeBackOf_within txn)

theorem evict_within : pool.evict.Within OfPages := by
  apply (pool.onCache_within _).bind
  intro evicted
  exact (writeBackEvicted_within evicted).bind fun _ => .pure _

theorem discardPage_within : (pool.discardPage id).Within errors := (pool.onCache_within _).bind fun _ => .pure _

theorem get_within : (pool.get id).Within OfPages :=
  (pool.fetch_within id).bind fun frame => frame.page_within.bind fun page => .pure page.rows

end PoolId

/-! ## Rows -/

namespace TableFile

variable (file : TableFile) (pool : PoolId) (txn : TxnId) (row : Row)

theorem insertOn_within (id : PageId) : (insertOn pool txn id row).Within OfRows := by
  refine pool.mutate_within id (fun _ => .ofPages) fun page e failed => ?_
  split at failed
  · cases failed
  · cases failed
  · next e' other insert_eq =>
    cases failed
    rcases Page.ofRows_of_insert insert_eq with ⟨id, rfl⟩ | ofRows
    · exact absurd rfl (other id)
    · exact ofRows

theorem insertAmong_within (left : Nat) (number : UInt32) :
    (file.insertAmong pool txn row left number).Within OfRows := by
  induction left generalizing number with
  | zero => exact .pure none
  | succ left ih =>
    apply (insertOn_within pool txn row _).bind
    intro stored
    cases stored with
    | some stored => exact .pure _
    | none => exact ih (number + 1)

theorem insertAppending_within (left : Nat) : (file.insertAppending pool txn row left).Within OfRows := by
  induction left with
  | zero => exact .abort _
  | succ left ih =>
    apply (file.appendPage_within.mono fun _ => .ofPages).bind
    intro number
    apply (insertOn_within pool txn row _).bind
    intro stored
    cases stored with
    | some stored => exact .pure stored
    | none => exact ih

theorem insert_within : (file.insert pool txn row).Within OfRows := by
  unfold insert
  split
  · exact .refuseThen (.schemaMismatch _ _)
  · apply (file.pageCount_within.mono fun _ => .ofPages).bind
    intro count
    apply (file.insertAmong_within pool txn row _ _).bind
    intro stored
    cases stored with
    | some stored => exact .pure stored
    | none => exact file.insertAppending_within pool txn row _

theorem delete_within : (file.delete pool txn row).Within OfRows := by
  unfold delete
  cases row.id with
  | none => exact .refuse .rowNotStored
  | some id =>
    dsimp only
    split
    · exact .refuseThen (.ofPages (.rowNotOnPage _))
    apply (file.pageCount_within.mono fun _ => .ofPages).bind
    intro count
    split
    · exact .refuseThen (.ofPages (.pageOutOfRange _))
    refine (pool.mutate_within id.page (fun _ => .ofPages) fun page e failed => ?_).bind fun _ => .pure id.page
    split at failed
    · cases failed
    · next delete_eq =>
      cases failed
      exact Page.ofRows_of_delete delete_eq

end TableFile

namespace PoolId

variable (pool : PoolId) (txn : TxnId) (row : Row)

theorem insert_within (table : TableId) : (pool.insert txn table row).Within OfRows :=
  ((Store.lookUp_file_within table).mono fun _ => .ofPages).bind fun file => file.insert_within pool txn row

theorem delete_within : (pool.delete txn row).Within OfRows := by
  unfold delete
  cases row.id with
  | none => exact .refuse .rowNotStored
  | some id =>
    exact ((Store.lookUp_file_within id.page.table).mono fun _ => .ofPages).bind fun file =>
      (file.delete_within pool txn row).discard

end PoolId

/-! ## The calls of a pool -/

/-- The action makes no file shorter. -/
def Action.Grows {α : Type} (action : Action α) : Prop := ∀ start : Store, Preserves start.Extends action

theorem Action.Within.grows {α : Type} {errors : StoreError → Prop} {action : Action α} (h : action.Within errors) :
    action.Grows := by
  intro start store extended
  have ends := h store
  cases run : action store with
  | ok a after =>
    rw [run] at ends
    exact extended.trans ends
  | error failure after =>
    rw [run] at ends
    exact extended.trans ends.1

theorem Action.Grows.hasRoom {α : Type} {action : Action α} (h : action.Grows) {store : Store} {files : List TableFile}
    (room : (action.after store).HasRoom files) : store.HasRoom files :=
  (h store store (.refl store)).after.hasRoom room

theorem PoolId.perform_grows (pool : PoolId) (call : PoolCall) : (pool.perform call).Grows := by
  intro start
  cases call with
  | insert txn table row => exact .map ((pool.insert_within txn row table).grows start)
  | delete txn row => exact .map ((pool.delete_within txn row).grows start)
  | get id => exact .map ((pool.get_within id).grows start)
  | flushPage id => exact .map ((pool.flushPage_within id).discard.grows start)
  | flushAll => exact .map (pool.flushAll_within.grows start)
  | flushTxn txn => exact .map ((pool.flushTxn_within txn).grows start)
  | evict => exact .map (pool.evict_within.discard.grows start)
  | scan table => exact .map (scan_keeps (fun id => (pool.fetch_within id).grows start) table)

/-! ## Tables that may have used up their page numbers -/

namespace PoolId

variable {pool : PoolId} {tables : Tables} {capacity : Nat} {current : Contents} {store : Store} {row : Row}

theorem insert_leads (h : store.HasRoom tables.files → pool.Shows tables capacity current store ∧ row.Made)
    (txn : TxnId) (table : TableId) :
    Leads
      (fun _ after => store.Extends after ∧
        (after.HasRoom tables.files → pool.Shows tables capacity (current.insert tables.files table row).1 after))
      (fun failure after => store.Extends after ∧
        (after.HasRoom tables.files → pool.Shows tables capacity current after ∧
          (failure = .refused .fileSystem ∨ (current.insert tables.files table row).2 = .error failure)))
      (pool.insert txn table row store) := by
  have extended := pool.insert_within txn row table store
  have inserted := fun room : store.HasRoom tables.files =>
    (h room).1.insert_leads txn table (h room).2 ((h room).1.room room)
  cases run : pool.insert txn table row store with
  | ok stored after =>
    rw [run] at extended inserted
    exact ⟨extended, fun room => inserted (extended.hasRoom room)⟩
  | error failure after =>
    rw [run] at extended inserted
    exact ⟨extended.1, fun room => inserted (extended.1.hasRoom room)⟩

theorem delete_leads (h : store.HasRoom tables.files → pool.Shows tables capacity current store) (txn : TxnId)
    (row : Row) :
    Leads
      (fun _ after => store.Extends after ∧
        (after.HasRoom tables.files → pool.Shows tables capacity (current.delete tables.files row).1 after))
      (fun _ after => store.Extends after) (pool.delete txn row store) := by
  have extended := pool.delete_within txn row store
  cases run : pool.delete txn row store with
  | ok _ after =>
    rw [run] at extended
    refine ⟨extended, fun room => ?_⟩
    have shows := h (extended.hasRoom room)
    obtain ⟨store', ends, shows'⟩ := shows.delete_ok txn row (shows.room (extended.hasRoom room))
    have after_eq := ends.eq.2
    rw [Action.after, run] at after_eq
    change after = store' at after_eq
    rw [after_eq]
    exact shows'
  | error failure after =>
    rw [run] at extended
    exact extended.1

end PoolId

theorem TableCursor.pageRows?_within (pool : PoolId) (file : TableFile) (number : UInt32) :
    (pageRows? pool file number).Within OfPages := by
  apply file.pageCount_within.bind
  intro count
  split
  · exact .pure none
  · apply (pool.fetch_within _).bind
    intro frame
    exact frame.page_within.bind fun page => .pure (some page.rows)

theorem TableCursor.pageRows?_tame (pool : PoolId) (file : TableFile) (number : UInt32) :
    (pageRows? pool file number).Tame := (pageRows?_within pool file number).tame nofun

end RowStore
