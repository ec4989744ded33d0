import Mathlib.Logic.Function.Basic
import RowStore.Proofs.Codec.Frame
import RowStore.Proofs.Pool.Careful
import RowStore.Proofs.Pool.Scanning
import RowStore.Proofs.Pool.Triples

/-!
# Who changed a page last

A changed page has one mark, and the mark is that of the transaction that changed it last. Calls are followed by a note
of who changed which page last, and whatever is read, written or given up on the way, no page gets a mark that the note
does not have.
-/

namespace RowStore

/-- The transaction that changed each page last, if one did. -/
abbrev LastChanges := PageId → Option TxnId

namespace LastChanges

def none : LastChanges := fun _ => .none

/-- The transaction changed the page on which the row lives. -/
def note (last : LastChanges) (txn : TxnId) (row : Row) : LastChanges :=
  match row.id with
  | some id => Function.update last id.page (some txn)
  | .none => last

def perform (last : LastChanges) : PoolCall → Except Failure PoolAnswer → LastChanges
  | .insert txn _ _, .ok (.stored row) => last.note txn row
  | .delete txn row, .ok _ => last.note txn row
  | _, _ => last

def run (last : LastChanges) : List PoolCall → List (Except Failure PoolAnswer) → LastChanges
  | call :: calls, outcome :: outcomes => (last.perform call outcome).run calls outcomes
  | _, _ => last

end LastChanges

namespace PoolId

variable {pool : PoolId} {last : LastChanges} {store before after : Store} {id : PageId} {frame : FrameId} {page : Page}
  {evicted : Option (PageId × FrameId)} {kept : Pool}

/-- Each page of the pool knows its id, and its mark is that of the transaction that changed it last. -/
structure Marks (pool : PoolId) (last : LastChanges) (store : Store) : Prop where
  tidy : store.Tidy
  catalog : ∀ table file, store.catalog.file table = .ok file → file.id = table
  pages : ∀ id frame page, pool.Resident id frame store → store.frames[frame.index]? = some page →
    page.id = id ∧ ∀ txn, page.dirtier = some txn → last id = some txn

/-! ## Changes of a store -/

theorem GivesUp.of_resident (gives : pool.GivesUp evicted before after) (tidy : after.Tidy)
    (resident : pool.Resident id frame after) (frame_eq : before.frames[frame.index]? = some page) :
    pool.Resident id frame before := by
  by_cases known : ∃ other, pool.Resident other frame before
  · obtain ⟨other, resident'⟩ := known
    rcases gives.stays other frame resident' with still | gone
    · rwa [tidy.id_eq resident still]
    · exact absurd resident ((gives.gone other frame gone).2.2 id)
  · exact absurd resident (gives.others frame page (fun other resident' => known ⟨other, resident'⟩) frame_eq id)

theorem store_of_onCache {α : Type} {change : Cache PageId FrameId → Except Abort (Cache PageId FrameId × α)} {a : α}
    (h : pool.onCache change before = .ok a after) : ∃ pools, after = { before with pools } := by
  cases kept_eq : before.pools[pool.index]? with
  | none =>
    unfold onCache at h
    rw [Action.bind_error (pool_error kept_eq)] at h
    cases h
  | some kept =>
    cases change_eq : change kept.cache with
    | error cause =>
      unfold onCache at h
      rw [Action.bind_ok (pool_eq kept_eq), Action.bind_error (Action.guard_apply_error change_eq before)] at h
      cases h
    | ok changed =>
      rw [onCache_eq kept_eq change_eq] at h
      cases h
      exact ⟨_, rfl⟩

theorem frames_of_onCache {α : Type} {change : Cache PageId FrameId → Except Abort (Cache PageId FrameId × α)} {a : α}
    (h : pool.onCache change before = .ok a after) : after.frames = before.frames := by
  obtain ⟨pools, rfl⟩ := store_of_onCache h
  rfl

namespace Marks

theorem congr (h : pool.Marks last before) (catalog_eq : after.catalog = before.catalog)
    (frames_eq : after.frames = before.frames) (pools_eq : after.pools = before.pools) : pool.Marks last after where
  tidy := h.tidy.congr pools_eq (Nat.le_of_eq (congrArg Array.size frames_eq.symm))
  catalog := by
    rw [catalog_eq]
    exact h.catalog
  pages := by
    intro id frame page resident frame_eq
    rw [frames_eq] at frame_eq
    exact h.pages id frame page (resident.congr pools_eq.symm) frame_eq

theorem givesUp (h : pool.Marks last before) (gives : pool.GivesUp evicted before after) (tidy : after.Tidy)
    (frames_eq : after.frames = before.frames) : pool.Marks last after where
  tidy := tidy
  catalog := by
    rw [gives.catalog]
    exact h.catalog
  pages := by
    intro id frame page resident frame_eq
    rw [frames_eq] at frame_eq
    exact h.pages id frame page (gives.of_resident tidy resident frame_eq) frame_eq

theorem readIn (h : pool.Marks last before) (gives : pool.GivesUp evicted before after) (tidy : after.Tidy)
    (frames_eq : after.frames = before.frames.push page) (resident : pool.Resident page.id ⟨before.frames.size⟩ after)
    (unmarked : page.dirtier = none) : pool.Marks last after where
  tidy := tidy
  catalog := by
    rw [gives.catalog]
    exact h.catalog
  pages := by
    intro id frame page' resident' frame_eq
    rw [frames_eq, Array.getElem?_push] at frame_eq
    split at frame_eq
    · next new =>
      cases frame_eq
      have same : frame = ⟨before.frames.size⟩ := congrArg FrameId.mk new
      subst same
      refine ⟨tidy.id_eq resident resident', ?_⟩
      intro txn marked
      rw [unmarked] at marked
      cases marked
    · exact h.pages id frame page' (gives.of_resident tidy resident' frame_eq) frame_eq

theorem setPage (h : pool.Marks last store) (frame_eq : store.frames[frame.index]? = some page) (page' : Page)
    (id_eq : page'.id = page.id) {last' : LastChanges}
    (here : ∀ id txn, pool.Resident id frame store → page'.dirtier = some txn → last' id = some txn)
    (others : ∀ id other, pool.Resident id other store → other ≠ frame → last' id = last id) (disk : Disk)
    (meters : Array Meter) :
    pool.Marks last' { store with disk, meters, frames := store.frames.setIfInBounds frame.index page' } where
  tidy := h.tidy.congr rfl (by simp)
  catalog := h.catalog
  pages := by
    intro id other page₁ resident other_eq
    have resident : pool.Resident id other store := resident
    rw [Array.getElem?_setIfInBounds] at other_eq
    split at other_eq
    · next same =>
      obtain rfl : frame = other := congrArg FrameId.mk same
      split at other_eq
      · cases other_eq
        obtain ⟨page_id, -⟩ := h.pages id frame page resident frame_eq
        exact ⟨id_eq.trans page_id, fun txn marked => here id txn resident marked⟩
      · cases other_eq
    · next ne =>
      rw [others id other resident fun same => ne (congrArg FrameId.index same.symm)]
      exact h.pages id other page₁ resident other_eq

end Marks

/-! ## Reading and writing -/

theorem writeBack_marks (id : PageId) (frame : FrameId) : Preserves (pool.Marks last) (writeBack id frame) := by
  intro store h
  rcases writeBack_cases id frame store with
    ⟨failure, failed⟩ | ⟨page, -, -, run⟩ | ⟨page, file, data, offset, disk, meters, frame_eq, -, -, -, -, run⟩
  · rw [failed]
    exact h
  · rw [run]
    exact h
  · rw [run]
    exact h.setPage frame_eq (page.markDirty none) rfl (fun _ _ _ marked => by cases marked) (fun _ _ _ _ => rfl) disk
      meters

theorem writeBackEvicted_marks (evicted : Option (PageId × FrameId)) :
    Preserves (pool.Marks last) (writeBackEvicted evicted) := by
  cases evicted with
  | none => exact .pure fun _ h => h
  | some entry => exact (writeBack_marks entry.1 entry.2).discard

theorem writeBackAll_marks (entries : List (PageId × FrameId)) :
    Preserves (pool.Marks last) (writeBackAll entries) := by
  induction entries with
  | nil => exact .pure fun _ h => h
  | cons entry entries ih => exact (writeBack_marks entry.1 entry.2).discard.bind fun _ => ih

theorem writeBackOf_marks (txn : TxnId) (entries : List (PageId × FrameId)) :
    Preserves (pool.Marks last) (writeBackOf txn entries) := by
  induction entries with
  | nil => exact .pure fun _ h => h
  | cons entry entries ih =>
    apply Triple.bind (.ofLooks entry.2.page_looks)
    intro page
    split
    · exact (writeBack_marks entry.1 entry.2).discard.bind fun _ => ih
    · exact ih

theorem get_marks (id : PageId) : Preserves (pool.Marks last) (pool.onCache fun cache => cache.get id) := by
  intro store h
  rcases get_cases h.tidy pool id with
    ⟨run, -⟩ | ⟨frame, after, run, tidy, gives, -⟩ | ⟨after, kept, run, tidy, gives, -⟩
  · rw [run]
    exact h
  · rw [run]
    exact h.givesUp gives tidy (frames_of_onCache run)
  · rw [run]
    exact h.givesUp gives tidy (frames_of_onCache run)

theorem of_readPage_ok {file : TableFile} {number : UInt32} (h : file.readPage number before = .ok page after) :
    page.id = file.pageId number ∧ page.dirtier = none := by
  obtain ⟨bytes, store₁, -, h⟩ := Action.of_bind_ok h
  obtain ⟨part, store₂, -, h⟩ := Action.of_bind_ok h
  obtain ⟨-, store₃, -, h⟩ := Action.of_bind_ok h
  obtain ⟨id_eq, -, -, unmarked, -⟩ := Page.decode_eq_ok (Action.of_attempt_ok h).1
  exact ⟨id_eq, unmarked⟩

theorem load_marks (h : pool.Marks last store) (kept_eq : store.pools[pool.index]? = some kept)
    (absent : ∀ frame, ¬pool.Resident id frame store) :
    Meets (fun _ => pool.Marks last) (pool.Marks last) (pool.load id store) := by
  unfold load
  cases found : store.catalog.file id.table with
  | error e =>
    rw [Action.bind_error (Store.lookUp_error found)]
    exact h
  | ok file =>
    rw [Action.bind_ok (Store.lookUp_ok found)]
    obtain ⟨meters, ⟨failure, failed⟩ | ⟨page, read_eq⟩⟩ := file.readPage_cases id.number store
    · rw [Action.bind_error failed]
      exact h.congr rfl rfl rfl
    · obtain ⟨page_id, unmarked⟩ := of_readPage_ok read_eq
      rw [TableFile.pageId, h.catalog _ _ found] at page_id
      obtain ⟨evicted, middle, run, frames_eq, tidy, gives, resident, -⟩ :=
        getOrInsert_cases h.tidy kept_eq absent page meters
      rw [Action.bind_ok read_eq, Action.bind_ok (Store.addFrame_eq ..), Action.bind_ok run]
      have marks : pool.Marks last middle := h.readIn gives tidy frames_eq (by rw [page_id]; exact resident) unmarked
      have written : Preserves (pool.Marks last)
          (do writeBackEvicted evicted; return ⟨store.frames.size⟩ : Action FrameId) :=
        .map (writeBackEvicted_marks evicted)
      exact written middle marks

theorem fetch_marks (id : PageId) : Preserves (pool.Marks last) (pool.fetch id) := by
  intro store h
  have looked := get_marks id store h
  unfold fetch
  rcases get_cases h.tidy pool id with
    ⟨run, -⟩ | ⟨frame, after, run, -⟩ | ⟨middle, kept, run, -, -, kept_eq, -, absent⟩
  · rw [Action.bind_error run]
    exact h
  · rw [run] at looked
    rw [Action.bind_ok run]
    exact looked
  · rw [run] at looked
    rw [Action.bind_ok run]
    change Meets _ _ (pool.load id middle)
    exact load_marks looked kept_eq absent

/-! ## Changing a page -/

theorem mutate_marks {α : Type} {change : Page → Except Failure (Page × α)} {last' : α → LastChanges}
    (changed : ∀ page page' a, page.id = id → (∀ txn, page.dirtier = some txn → last id = some txn) →
      change page = .ok (page', a) → page'.id = page.id ∧ (∀ txn, page'.dirtier = some txn → last' a id = some txn) ∧
        ∀ other, other ≠ id → last' a other = last other) :
    Triple (pool.Marks last) (pool.mutate id change) (fun a => pool.Marks (last' a)) (pool.Marks last) := by
  apply Triple.bind (fetch_marks id)
  intro frame store h
  cases kept_eq : store.pools[pool.index]? with
  | none =>
    rw [Action.bind_error (pool_error kept_eq)]
    exact h
  | some kept =>
    rw [Action.bind_ok (pool_eq kept_eq)]
    cases peek_eq : kept.cache.peek id with
    | error cause =>
      rw [Action.bind_error (Action.guard_apply_error rfl store)]
      exact h
    | ok found =>
      rw [Action.bind_ok (Action.guard_apply_ok rfl store)]
      by_cases here : found = some frame
      · subst here
        have resident : pool.Resident id frame store := ⟨kept, kept_eq, peek_eq⟩
        obtain ⟨page, frame_eq⟩ := h.tidy.page_of_resident resident
        obtain ⟨page_id, marked⟩ := h.pages id frame page resident frame_eq
        simp only [ite_true]
        rw [Action.bind_ok (FrameId.page_eq frame_eq)]
        unfold allOrNothing
        cases change_eq : change page with
        | error failure =>
          dsimp only
          rw [Action.bind_ok (FrameId.setPage_self frame_eq)]
          exact h
        | ok result =>
          obtain ⟨page', a⟩ := result
          obtain ⟨id_eq, marked', others⟩ := changed page page' a page_id marked change_eq
          dsimp only
          rw [Action.bind_ok (FrameId.setPage_eq ..)]
          refine h.setPage frame_eq page' id_eq ?_ ?_ store.disk store.meters
          · intro other txn resident' marked
            rw [h.tidy.id_eq resident' resident]
            exact marked' txn marked
          · intro other frame' resident' ne
            apply others
            rintro rfl
            exact ne (resident'.frame_eq resident)
      · simp only [here, ite_false]
        exact h

/-! ## Storing and removing rows -/

section Rows

variable {file : TableFile} {txn : TxnId} {row : Row}

theorem insertOn_marks :
    Triple (pool.Marks last) (TableFile.insertOn pool txn id row)
      (fun stored => pool.Marks (stored.elim last (last.note txn)))
      (pool.Marks last) := by
  apply mutate_marks
  intro page page' stored page_id marked change_eq
  split at change_eq
  · next inserted rowId insert_eq =>
    cases change_eq
    obtain ⟨-, index, -, rowId_eq, page_eq⟩ := Page.insert_eq_ok insert_eq
    have place : rowId.page = id := by rw [rowId_eq, ← page_id]; rfl
    refine ⟨by rw [page_eq]; rfl, ?_, ?_⟩
    · intro other marked
      cases marked
      simp [LastChanges.note, Row.withId, place]
    · intro other ne
      simp [LastChanges.note, Row.withId, place, ne]
  · cases change_eq
    exact ⟨rfl, marked, fun _ _ => rfl⟩
  · cases change_eq

theorem insertAmong_marks (left : Nat) (number : UInt32) :
    Triple (pool.Marks last) (file.insertAmong pool txn row left number)
      (fun stored => pool.Marks (stored.elim last (last.note txn))) (pool.Marks last) := by
  induction left generalizing number with
  | zero => exact .pure fun _ h => h
  | succ left ih =>
    apply Triple.bind insertOn_marks
    intro stored
    cases stored with
    | none => exact ih (number + 1)
    | some stored => exact .pure fun _ h => h

theorem appendPage_marks : Preserves (pool.Marks last) file.appendPage := by
  apply Triple.bind (.ofLooks file.pageCount_looks)
  intro number
  apply Triple.bind (.ofLooks (Action.guard_looks _))
  intro data
  have written : Preserves (pool.Marks last) (file.writeBytes number data) := by
    intro store h
    rcases file.writeBytes_cases number data store with ⟨failure, failed⟩ | ⟨offset, disk, meters, -, -, run⟩
    · rw [failed]
      exact h
    · rw [run]
      exact h.congr rfl rfl rfl
  exact .map written

theorem insertAppending_marks (left : Nat) :
    Triple (pool.Marks last) (file.insertAppending pool txn row left) (fun stored => pool.Marks (last.note txn stored))
      (pool.Marks last) := by
  induction left with
  | zero => exact .fail fun _ h => h
  | succ left ih =>
    apply Triple.bind appendPage_marks
    intro number
    apply Triple.bind insertOn_marks
    intro stored
    cases stored with
    | none => exact ih
    | some stored => exact .pure fun _ h => h

theorem fileInsert_marks :
    Triple (pool.Marks last) (file.insert pool txn row) (fun stored => pool.Marks (last.note txn stored))
      (pool.Marks last) := by
  unfold TableFile.insert
  split
  · exact .failThen fun _ h => h
  · apply Triple.bind (.ofLooks file.pageCount_looks)
    intro count
    apply Triple.bind (insertAmong_marks count.toNat 0)
    intro stored
    cases stored with
    | none => exact insertAppending_marks UInt32.size
    | some stored => exact .pure fun _ h => h

theorem insert_marks {table : TableId} :
    Triple (pool.Marks last) (pool.insert txn table row) (fun stored => pool.Marks (last.note txn stored))
      (pool.Marks last) :=
  .bind (.ofLooks (Store.lookUp_looks _)) fun _ => fileInsert_marks

theorem fileDelete_marks :
    Triple (pool.Marks last) (file.delete pool txn row) (fun _ => pool.Marks (last.note txn row))
      (pool.Marks last) := by
  unfold TableFile.delete
  cases id_eq : row.id with
  | none => exact .fail fun _ h => h
  | some id =>
    dsimp only
    split
    · exact .failThen fun _ h => h
    apply (Triple.ofLooks file.pageCount_looks).bind
    intro count
    split
    · exact .failThen fun _ h => h
    refine .map (mutate_marks ?_)
    intro page page' _ _ _ change_eq
    split at change_eq
    · next deleted delete_eq =>
      cases change_eq
      obtain ⟨-, -, -, -, rfl⟩ := Page.delete_eq_ok delete_eq
      refine ⟨rfl, ?_, ?_⟩
      · intro other marked
        cases marked
        simp [LastChanges.note, id_eq]
      · intro other ne
        simp [LastChanges.note, id_eq, ne]
    · cases change_eq

theorem delete_marks :
    Triple (pool.Marks last) (pool.delete txn row) (fun _ => pool.Marks (last.note txn row)) (pool.Marks last) := by
  unfold PoolId.delete
  cases row.id with
  | none => exact .fail fun _ h => h
  | some id => exact (Triple.ofLooks (Store.lookUp_looks _)).bind fun _ => fileDelete_marks.discard

end Rows

/-! ## Calls -/

theorem getRows_marks (id : PageId) : Preserves (pool.Marks last) (pool.get id) := by
  apply (fetch_marks id).bind
  intro frame
  exact .map (Triple.ofLooks frame.page_looks)

theorem evict_marks : Preserves (pool.Marks last) pool.evict := by
  have taken : Preserves (pool.Marks last) (pool.onCache Cache.discardLast) := by
    intro store h
    rcases discardLast_cases h.tidy pool with ⟨-, run⟩ | ⟨kept, entries, after, -, -, run, tidy, gives⟩
    · rw [run]
      exact h
    · rw [run]
      exact h.givesUp gives tidy (frames_of_onCache run)
  apply taken.bind
  intro evicted
  exact .map (writeBackEvicted_marks evicted)

theorem flushPage_marks (id : PageId) : Preserves (pool.Marks last) (pool.flushPage id) := by
  apply (get_marks id).bind
  intro found
  cases found with
  | some frame => exact writeBack_marks id frame
  | none => exact .pure fun _ h => h

theorem flushAll_marks : Preserves (pool.Marks last) pool.flushAll := by
  apply (Triple.ofLooks pool.pool_looks).bind
  intro kept
  exact (Triple.ofLooks (Action.guard_looks _)).bind writeBackAll_marks

theorem flushTxn_marks (txn : TxnId) : Preserves (pool.Marks last) (pool.flushTxn txn) := by
  apply (Triple.ofLooks pool.pool_looks).bind
  intro kept
  exact (Triple.ofLooks (Action.guard_looks _)).bind (writeBackOf_marks txn)

theorem perform_marks (call : PoolCall) :
    Triple (pool.Marks last) (pool.perform call) (fun answer => pool.Marks (last.perform call (.ok answer)))
      (pool.Marks last) := by
  cases call with
  | insert txn table row => exact .map insert_marks
  | delete txn row => exact .map delete_marks
  | get id => exact .map (getRows_marks id)
  | flushPage id => exact .map (flushPage_marks id).discard
  | flushAll => exact .map flushAll_marks
  | flushTxn txn => exact .map (flushTxn_marks txn)
  | evict => exact .map evict_marks.discard
  | scan table => exact .map (scan_keeps fetch_marks table)

/-- Whatever calls come, and whether they succeed or fail, a mark is always that of the transaction that changed the
page last. -/
theorem run_marks (calls : List PoolCall) (h : pool.Marks last store) :
    pool.Marks (last.run calls (pool.run calls store).1) (pool.run calls store).2 := by
  induction calls generalizing last store with
  | nil => exact h
  | cons call calls ih =>
    have met := perform_marks call store h
    unfold PoolId.run
    cases run : pool.perform call store with
    | ok answer after =>
      rw [run] at met
      exact ih met
    | error failure after =>
      rw [run] at met
      cases call <;> exact ih met

end PoolId

end RowStore
