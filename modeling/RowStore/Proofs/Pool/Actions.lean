import RowStore.Store.Files

/-!
# Running actions

What the actions that others are made of do to a store, each as an equation, so that a longer action is run by running
its parts.
-/

namespace RowStore

variable {α β : Type} {store store' : Store}

namespace Action

/-- The result or the failure of an action. -/
def outcome (action : Action α) (store : Store) : Except Failure α :=
  match action store with
  | .ok a _ => .ok a
  | .error failure _ => .error failure

/-- The store that an action leaves behind. -/
def after (action : Action α) (store : Store) : Store :=
  match action store with
  | .ok _ store => store
  | .error _ store => store

/-- The action ends with this outcome, and leaves `store'` behind. -/
def Ends (action : Action α) (store : Store) (outcome : Except Failure α) (store' : Store) : Prop :=
  match outcome with
  | .ok a => action store = .ok a store'
  | .error failure => action store = .error failure store'

theorem Ends.eq {action : Action α} {outcome : Except Failure α} (h : action.Ends store outcome store') :
    action.outcome store = outcome ∧ action.after store = store' := by
  cases outcome with
  | ok a =>
    have run : action store = .ok a store' := h
    rw [Action.outcome, Action.after, run]
    exact ⟨rfl, rfl⟩
  | error failure =>
    have run : action store = .error failure store' := h
    rw [Action.outcome, Action.after, run]
    exact ⟨rfl, rfl⟩

/-! ## Putting actions together -/

theorem bind_ok {σ : Type} {first : EStateM Failure σ α} {next : α → EStateM Failure σ β} {a : α} {s s' : σ}
    (h : first s = .ok a s') : (first >>= next) s = next a s' := by
  simp only [bind, EStateM.bind, h]

theorem bind_error {σ : Type} {first : EStateM Failure σ α} {next : α → EStateM Failure σ β} {failure : Failure}
    {s s' : σ} (h : first s = .error failure s') : (first >>= next) s = .error failure s' := by
  simp only [bind, EStateM.bind, h]

theorem of_bind_ok {first : Action α} {next : α → Action β} {b : β} (h : (first >>= next) store = .ok b store') :
    ∃ a middle, first store = .ok a middle ∧ next a middle = .ok b store' := by
  cases run : first store with
  | ok a middle => exact ⟨a, middle, rfl, (bind_ok run).symm.trans h⟩
  | error failure middle => cases (bind_error run).symm.trans h

theorem of_bind_error {first : Action α} {next : α → Action β} {failure : Failure}
    (h : (first >>= next) store = .error failure store') :
    first store = .error failure store' ∨
      ∃ a middle, first store = .ok a middle ∧ next a middle = .error failure store' := by
  cases run : first store with
  | ok a middle => exact .inr ⟨a, middle, rfl, (bind_ok run).symm.trans h⟩
  | error cause middle =>
    cases (bind_error run).symm.trans h
    exact .inl rfl

theorem Ends.map {action : Action α} {outcome : Except Failure α} (h : action.Ends store outcome store') (f : α → β) :
    Ends (do return f (← action)) store (outcome.map f) store' := by
  cases outcome with
  | ok a => exact bind_ok h
  | error failure => exact bind_error h

theorem discard_ok {action : Action α} {a : α} (h : action store = .ok a store') :
    discard action store = .ok () store' := by
  simp only [discard, Functor.discard, Functor.mapConst, Function.comp, EStateM.map, h, Function.const]

theorem discard_error {action : Action α} {failure : Failure} (h : action store = .error failure store') :
    discard action store = .error failure store' := by
  simp only [discard, Functor.discard, Functor.mapConst, Function.comp, EStateM.map, h]

theorem of_discard_ok {action : Action α} (h : discard action store = .ok () store') :
    ∃ a, action store = .ok a store' := by
  cases run : action store with
  | ok a middle =>
    cases (discard_ok run).symm.trans h
    exact ⟨a, rfl⟩
  | error cause middle => cases (discard_error run).symm.trans h

theorem of_discard_error {action : Action α} {failure : Failure} (h : discard action store = .error failure store') :
    action store = .error failure store' := by
  cases run : action store with
  | ok a middle => cases (discard_ok run).symm.trans h
  | error cause middle =>
    cases (discard_error run).symm.trans h
    rfl

theorem of_attempt_ok {result : Except Failure α} {a : α} (h : attempt result store = .ok a store') :
    result = .ok a ∧ store' = store := by
  cases result with
  | ok b => cases h; exact ⟨rfl, rfl⟩
  | error failure => cases h

theorem of_attempt_error {result : Except Failure α} {failure : Failure}
    (h : attempt result store = .error failure store') : store' = store := by
  cases result with
  | ok b => cases h
  | error failure => cases h; rfl

theorem of_check_ok {result : Except StoreError α} {a : α} (h : check result store = .ok a store') :
    result = .ok a ∧ store' = store := by
  cases result with
  | ok b => cases h; exact ⟨rfl, rfl⟩
  | error e => cases h

theorem get_apply (store : Store) : (get : Action Store) store = .ok store store := rfl

theorem check_apply_ok {result : Except StoreError α} {a : α} (h : result = .ok a) (store : Store) :
    check result store = .ok a store := by rw [h]; rfl

theorem check_apply_error {result : Except StoreError α} {e : StoreError} (h : result = .error e) (store : Store) :
    check result store = .error (.refused e) store := by rw [h]; rfl

theorem guard_apply_ok {result : Except Abort α} {a : α} (h : result = .ok a) (store : Store) :
    guard result store = .ok a store := by rw [h]; rfl

theorem guard_apply_error {result : Except Abort α} {cause : Abort} (h : result = .error cause) (store : Store) :
    guard result store = .error (.aborted cause) store := by rw [h]; rfl

theorem attempt_apply_ok {result : Except Failure α} {a : α} (h : result = .ok a) (store : Store) :
    attempt result store = .ok a store := by rw [h]; rfl

theorem attempt_apply_error {result : Except Failure α} {failure : Failure} (h : result = .error failure)
    (store : Store) : attempt result store = .error failure store := by rw [h]; rfl

end Action

/-! ## Pages in memory -/

theorem FrameId.page_eq {frame : FrameId} {page : Page} (h : store.frames[frame.index]? = some page) :
    frame.page store = .ok page store := by
  unfold FrameId.page
  rw [Action.bind_ok (Action.get_apply store), h]
  rfl

theorem FrameId.setPage_eq (frame : FrameId) (page : Page) (store : Store) :
    frame.setPage page store =
      .ok () { store with frames := store.frames.setIfInBounds frame.index page } := rfl

theorem FrameId.frames_setPage_self {frame : FrameId} {page : Page} (h : store.frames[frame.index]? = some page) :
    store.frames.setIfInBounds frame.index page = store.frames := by
  refine Array.ext_getElem? fun i => ?_
  rw [Array.getElem?_setIfInBounds]
  split
  · next here => rw [← here, h, if_pos (Array.getElem?_eq_some_iff.mp h).1]
  · rfl

theorem FrameId.setPage_self {frame : FrameId} {page : Page} (h : store.frames[frame.index]? = some page) :
    frame.setPage page store = .ok () store := by
  rw [setPage_eq, frames_setPage_self h]

theorem Store.addFrame_eq (page : Page) (store : Store) :
    Store.addFrame page store = .ok ⟨store.frames.size⟩ { store with frames := store.frames.push page } := rfl

theorem FrameId.page_error {frame : FrameId} (h : store.frames[frame.index]? = none) :
    frame.page store = .error (.aborted .unknownHandle) store := by
  unfold FrameId.page
  rw [Action.bind_ok (Action.get_apply store), h]
  rfl

/-! ## The catalog -/

theorem Store.lookUp_ok {look : Catalog → Except StoreError α} {a : α} (h : look store.catalog = .ok a) :
    Store.lookUp look store = .ok a store := Action.check_apply_ok h store

theorem Store.lookUp_error {look : Catalog → Except StoreError α} {e : StoreError}
    (h : look store.catalog = .error e) : Store.lookUp look store = .error (.refused e) store :=
  Action.check_apply_error h store

/-! ## Table files -/

namespace TableFile

theorem bytes_eq {file : TableFile} {bytes : Bytes} (h : store.disk.read file.place = .ok bytes) :
    file.bytes store = .ok bytes store := Action.check_apply_ok h store

theorem pageCount_eq {file : TableFile} {bytes : Bytes} (h : store.disk.read file.place = .ok bytes) :
    file.pageCount store = .ok (file.countPages bytes) store := by
  unfold pageCount
  rw [Action.bind_ok (bytes_eq h)]
  rfl

theorem count_eq (file : TableFile) (change : Meter → Meter) (store : Store) :
    file.count change store = .ok () { store with meters := store.meters.modify file.serial change } := rfl

theorem writeBytes_ok {file : TableFile} {number : UInt32} {data : Bytes} {offset : Nat} {disk : Disk}
    (offset_eq : (file.pageId number).offset file.pageSize = .ok offset)
    (write_eq : store.disk.writeAt file.place offset data = .ok disk) :
    file.writeBytes number data store =
      .ok () { store with disk, meters := store.meters.modify file.serial Meter.countWrite } := by
  unfold writeBytes
  rw [Action.bind_ok (Action.guard_apply_ok offset_eq store), Action.bind_ok (Action.get_apply store),
    Action.bind_ok (Action.check_apply_ok write_eq store)]
  rfl

theorem writeBytes_error {file : TableFile} {number : UInt32} {data : Bytes} {offset : Nat} {e : StoreError}
    (offset_eq : (file.pageId number).offset file.pageSize = .ok offset)
    (write_eq : store.disk.writeAt file.place offset data = .error e) :
    file.writeBytes number data store = .error (.refused e) store := by
  unfold writeBytes
  rw [Action.bind_ok (Action.guard_apply_ok offset_eq store), Action.bind_ok (Action.get_apply store)]
  exact Action.bind_error (Action.check_apply_error write_eq store)

theorem writePage_eq {file : TableFile} {page : Page} {data : Bytes} (table_eq : page.id.table = file.id)
    (encode_eq : page.encode = .ok data) (store : Store) :
    file.writePage page store = file.writeBytes page.id.number data store := by
  unfold writePage
  simp only [table_eq, ne_eq, not_true, ite_false]
  rw [Action.bind_ok (Action.guard_apply_ok encode_eq store)]

theorem last_of_pageRange {file : TableFile} {number : UInt32} {first last : Nat}
    (h : file.pageRange number = .ok (first, last)) : last = number.toNat * file.pageSize + file.pageSize := by
  unfold pageRange PageId.offset at h
  by_cases lt : (file.pageId number).number.toNat * file.pageSize < UInt64.size
  · simp only [if_pos lt] at h
    split at h
    · cases h
      rfl
    · cases h
  · simp only [if_neg lt] at h
    cases h

end TableFile

end RowStore
