import RowStore.Proofs.Pool.Tidy

/-!
# What becomes of changed pages

A page that was changed stays in memory, or is written to its file when it is given up, or is lost: it was given up and
could not be written.
-/

namespace RowStore

/-! ## Writes to a disk -/

structure PageWrite where
  file : TableFile
  number : UInt32
  data : Bytes

/-- The first disk becomes the second when these pages are written in turn. -/
inductive Disk.Takes : Disk → List PageWrite → Disk → Prop where
  | nil (disk : Disk) : Disk.Takes disk [] disk
  | cons {disk middle disk' : Disk} {write : PageWrite} {writes : List PageWrite} {offset : Nat}
      (offset_eq : (write.file.pageId write.number).offset write.file.pageSize = .ok offset)
      (write_eq : disk.writeAt write.file.place offset write.data = .ok middle)
      (rest : Disk.Takes middle writes disk') : Disk.Takes disk (write :: writes) disk'

theorem Disk.Takes.append {disk middle disk' : Disk} {writes writes' : List PageWrite}
    (first : disk.Takes writes middle) (second : middle.Takes writes' disk') :
    disk.Takes (writes ++ writes') disk' := by
  induction first with
  | nil => exact second
  | cons offset_eq write_eq _ ih => exact .cons offset_eq write_eq (ih second)

namespace PoolId

variable {pool : PoolId} {id : PageId} {frame : FrameId} {page : Page} {failure : Failure}
  {failure? : Option Failure} {writes writes' : List PageWrite} {catalog : Catalog} {kept kept' : Pool}
  {entries entries' : List (PageId × FrameId)} {evicted : Option (PageId × FrameId)} {before middle after : Store}

/-! ## The three ways -/

/-- The page is resident, and is as it was. -/
def Stays (pool : PoolId) (id : PageId) (frame : FrameId) (page : Page) (after : Store) : Prop :=
  pool.Resident id frame after ∧ after.frames[frame.index]? = some page

/-- The page was given up. It has no mark any more, and its bytes are among those written to the file of its table. -/
def Saved (pool : PoolId) (catalog : Catalog) (writes : List PageWrite) (id : PageId) (frame : FrameId) (page : Page)
    (after : Store) : Prop :=
  (∀ other, ¬ pool.Resident other frame after) ∧ after.frames[frame.index]? = some (page.markDirty none) ∧
    ∃ file data, catalog.file id.table = .ok file ∧ page.encode = .ok data ∧ ⟨file, page.id.number, data⟩ ∈ writes

/-- The page was given up with its mark, and cannot be written. -/
def Lost (pool : PoolId) (failure : Failure) (id : PageId) (frame : FrameId) (page : Page) (after : Store) : Prop :=
  (∀ other, ¬ pool.Resident id other after) ∧ after.frames[frame.index]? = some page ∧
    writeBack id frame after = .error failure after

/-- A part of a request went well, or failed, and wrote some pages on its way. Each page that was changed before went
one of the three ways, and no page was lost unless the part failed. `others` are in memory without being resident. -/
structure Passes (pool : PoolId) (failure? : Option Failure) (writes : List PageWrite) (before after : Store) :
    Prop where
  disk : before.disk.Takes writes after.disk
  catalog : after.catalog = before.catalog
  others : ∀ (frame : FrameId) (page : Page), (∀ id, ¬ pool.Resident id frame before) →
    before.frames[frame.index]? = some page →
      (∀ id, ¬ pool.Resident id frame after) ∧ after.frames[frame.index]? = some page
  changed : ∀ (id : PageId) (frame : FrameId) (page : Page), pool.Resident id frame before →
    before.frames[frame.index]? = some page → page.isDirty = true →
      pool.Stays id frame page after ∨ pool.Saved before.catalog writes id frame page after ∨
        ∃ failure, failure? = some failure ∧ pool.Lost failure id frame page after

theorem Resident.congr (h : pool.Resident id frame before) (pools_eq : after.pools = before.pools) :
    pool.Resident id frame after := by
  unfold Resident
  rw [pools_eq]
  exact h

theorem Saved.more (h : pool.Saved catalog writes id frame page after) (sub : writes ⊆ writes') :
    pool.Saved catalog writes' id frame page after := by
  obtain ⟨gone, frame_eq, file, data, found, encode_eq, mem⟩ := h
  exact ⟨gone, frame_eq, file, data, found, encode_eq, sub mem⟩

namespace Passes

theorem refl (pool : PoolId) (failure? : Option Failure) (store : Store) : pool.Passes failure? [] store store :=
  ⟨.nil _, rfl, fun _ _ absent frame_eq => ⟨absent, frame_eq⟩,
    fun _ _ _ resident frame_eq _ => .inl ⟨resident, frame_eq⟩⟩

theorem trans (first : pool.Passes none writes before middle) (second : pool.Passes failure? writes' middle after) :
    pool.Passes failure? (writes ++ writes') before after where
  disk := first.disk.append second.disk
  catalog := second.catalog.trans first.catalog
  others := by
    intro frame page absent frame_eq
    obtain ⟨absent', frame_eq'⟩ := first.others frame page absent frame_eq
    exact second.others frame page absent' frame_eq'
  changed := fun id frame page resident frame_eq dirty => by
    rcases first.changed id frame page resident frame_eq dirty with
      ⟨resident', frame_eq'⟩ | ⟨absent, frame_eq', written⟩ | ⟨failure, none_eq, -⟩
    · rcases second.changed id frame page resident' frame_eq' dirty with stays | saved | lost
      · exact .inl stays
      · rw [first.catalog] at saved
        exact .inr (.inl (saved.more (List.subset_append_right ..)))
      · exact .inr (.inr lost)
    · obtain ⟨absent', frame_eq''⟩ := second.others frame _ absent frame_eq'
      have saved : pool.Saved before.catalog writes id frame page after := ⟨absent', frame_eq'', written⟩
      exact .inr (.inl (saved.more (List.subset_append_left ..)))
    · cases none_eq

theorem weaken (h : pool.Passes none writes before after) : pool.Passes failure? writes before after :=
  ⟨h.disk, h.catalog, h.others, fun id frame page resident frame_eq dirty => by
    rcases h.changed id frame page resident frame_eq dirty with stays | saved | ⟨failure, none_eq, -⟩
    · exact .inl stays
    · exact .inr (.inl saved)
    · cases none_eq⟩

theorem ofDisk (takes : before.disk.Takes writes after.disk) (catalog_eq : after.catalog = before.catalog)
    (frames_eq : after.frames = before.frames) (pools_eq : after.pools = before.pools) :
    pool.Passes failure? writes before after where
  disk := takes
  catalog := catalog_eq
  others := fun frame page absent frame_eq =>
    ⟨fun id resident => absent id (resident.congr pools_eq.symm), by rw [frames_eq, frame_eq]⟩
  changed := fun id frame page resident frame_eq _ =>
    .inl ⟨resident.congr pools_eq, by rw [frames_eq, frame_eq]⟩

end Passes

/-! ## Giving up a page -/

/-- A pool gave up a page, if any, and it is still to be written back. Nothing else happened to the pages in memory. -/
structure GivesUp (pool : PoolId) (evicted : Option (PageId × FrameId)) (before after : Store) : Prop where
  disk : after.disk = before.disk
  catalog : after.catalog = before.catalog
  frames : ∀ (frame : FrameId) (page : Page), before.frames[frame.index]? = some page →
    after.frames[frame.index]? = some page
  stays : ∀ (id : PageId) (frame : FrameId), pool.Resident id frame before →
    pool.Resident id frame after ∨ evicted = some (id, frame)
  others : ∀ (frame : FrameId) (page : Page), (∀ id, ¬ pool.Resident id frame before) →
    before.frames[frame.index]? = some page → ∀ id, ¬ pool.Resident id frame after
  gone : ∀ (id : PageId) (frame : FrameId), evicted = some (id, frame) → pool.Resident id frame before ∧
    (∀ other, ¬ pool.Resident id other after) ∧ ∀ other, ¬ pool.Resident other frame after

namespace GivesUp

theorem ofEntries {rest : List (PageId × FrameId)} (added : List (PageId × FrameId))
    (kept_eq : before.pools[pool.index]? = some kept)
    (kept_eq' : after.pools[pool.index]? = some kept') (tidy : kept.Tidy entries before.frames.size)
    (tidy' : kept'.Tidy (added ++ rest) after.frames.size) (perm : entries.Perm (evicted.toList ++ rest))
    (fresh : ∀ entry ∈ added, entry.1 ∉ entries.map Prod.fst ∧ before.frames.size ≤ entry.2.index)
    (disk_eq : after.disk = before.disk) (catalog_eq : after.catalog = before.catalog)
    (frames : ∀ (frame : FrameId) (page : Page), before.frames[frame.index]? = some page →
      after.frames[frame.index]? = some page) : pool.GivesUp evicted before after where
  disk := disk_eq
  catalog := catalog_eq
  frames := frames
  stays := by
    intro id frame resident
    have mem := perm.mem_iff.mp ((tidy.resident_iff kept_eq).mp resident)
    rcases List.mem_append.mp mem with mem | mem
    · exact .inr (Option.mem_toList.mp mem)
    · exact .inl ((tidy'.resident_iff kept_eq').mpr (List.mem_append_right _ mem))
  others := fun frame page absent frame_eq id resident => by
    rcases List.mem_append.mp ((tidy'.resident_iff kept_eq').mp resident) with mem | mem
    · have lt := (Array.getElem?_eq_some_iff.mp frame_eq).1
      exact absurd (fresh _ mem).2 (Nat.not_le_of_lt lt)
    · exact absent id ((tidy.resident_iff kept_eq).mpr (perm.mem_iff.mpr (List.mem_append_right _ mem)))
  gone := fun id frame evicted_eq => by
    subst evicted_eq
    have mem : (id, frame) ∈ entries := perm.mem_iff.mpr List.mem_cons_self
    have ids := (perm.map Prod.fst).nodup_iff.mp tidy.holds.keys_nodup
    have handles := (perm.map Prod.snd).nodup_iff.mp tidy.handles
    rw [Option.toList_some, List.singleton_append, List.map_cons, List.nodup_cons] at ids handles
    refine ⟨(tidy.resident_iff kept_eq).mpr mem, fun other resident => ?_, fun other resident => ?_⟩
    · rcases List.mem_append.mp ((tidy'.resident_iff kept_eq').mp resident) with here | here
      · exact (fresh _ here).1 (List.mem_map.mpr ⟨_, mem, rfl⟩)
      · exact ids.1 (List.mem_map.mpr ⟨_, here, rfl⟩)
    · rcases List.mem_append.mp ((tidy'.resident_iff kept_eq').mp resident) with here | here
      · have lt : frame.index < before.frames.size := tidy.known _ mem
        exact absurd (fresh _ here).2 (Nat.not_le_of_lt lt)
      · exact handles.1 (List.mem_map.mpr ⟨_, here, rfl⟩)

theorem unwritten (h : pool.GivesUp evicted before after)
    (fails : ∀ (id : PageId) (frame : FrameId) (page : Page), evicted = some (id, frame) →
      after.frames[frame.index]? = some page → page.isDirty = true →
        ∃ failure, failure? = some failure ∧ writeBack id frame after = .error failure after) :
    pool.Passes failure? [] before after where
  disk := by
    rw [h.disk]
    exact .nil _
  catalog := h.catalog
  others := fun frame page absent frame_eq => ⟨h.others frame page absent frame_eq, h.frames frame page frame_eq⟩
  changed := fun id frame page resident frame_eq dirty => by
    have frame_eq' := h.frames frame page frame_eq
    rcases h.stays id frame resident with resident' | gone
    · exact .inl ⟨resident', frame_eq'⟩
    · obtain ⟨failure, failure_eq, failed⟩ := fails id frame page gone frame_eq' dirty
      exact .inr (.inr ⟨failure, failure_eq, (h.gone id frame gone).2.1, frame_eq', failed⟩)

theorem unchanged (h : pool.GivesUp none before after) : pool.Passes failure? [] before after :=
  h.unwritten fun _ _ _ gone => nomatch gone

theorem written {file : TableFile} {data : Bytes} {offset : Nat} {disk : Disk}
    (h : pool.GivesUp (some (id, frame)) before middle) (frame_eq : middle.frames[frame.index]? = some page)
    (found : middle.catalog.file id.table = .ok file) (encode_eq : page.encode = .ok data)
    (offset_eq : (file.pageId page.id.number).offset file.pageSize = .ok offset)
    (write_eq : middle.disk.writeAt file.place offset data = .ok disk) (meters : Array Meter) :
    pool.Passes none [⟨file, page.id.number, data⟩] before
      { middle with disk, meters, frames := middle.frames.setIfInBounds frame.index (page.markDirty none) } := by
  obtain ⟨resident, -, absent⟩ := h.gone id frame rfl
  -- No other page has the handle of the page that was given up.
  have still : ∀ (other : FrameId) (page' : Page), other ≠ frame → before.frames[other.index]? = some page' →
      (middle.frames.setIfInBounds frame.index (page.markDirty none))[other.index]? = some page' :=
    fun other page' ne frame_eq' =>
      (Array.getElem?_setIfInBounds_ne fun same => ne (congrArg FrameId.mk same.symm)).trans
        (h.frames other page' frame_eq')
  refine ⟨?_, h.catalog, fun other page' absent' frame_eq' => ?_, fun id' other page' resident' frame_eq' _ => ?_⟩
  · rw [← h.disk]
    exact .cons offset_eq write_eq (.nil _)
  · have ne : other ≠ frame := fun same => absent' id (same ▸ resident)
    exact ⟨fun id' resident' => h.others other page' absent' frame_eq' id' (resident'.congr rfl),
      still other page' ne frame_eq'⟩
  · rcases h.stays id' other resident' with resident'' | gone
    · have ne : other ≠ frame := fun same => absent id' (same ▸ resident'')
      exact .inl ⟨resident''.congr rfl, still other page' ne frame_eq'⟩
    · cases gone
      cases frame_eq.symm.trans (h.frames frame page' frame_eq')
      have lt := (Array.getElem?_eq_some_iff.mp frame_eq).1
      rw [h.catalog] at found
      exact .inr (.inl ⟨fun id' resident' => absent id' (resident'.congr rfl),
        Array.getElem?_setIfInBounds_self_of_lt lt, file, data, found, encode_eq, List.mem_singleton_self _⟩)

theorem settle (h : pool.GivesUp evicted before middle) (tidy : middle.Tidy) :
    (∃ writes after, writeBackEvicted evicted middle = .ok () after ∧ after.Tidy ∧ after.pools = middle.pools ∧
        pool.Passes none writes before after) ∨
      ∃ failure, writeBackEvicted evicted middle = .error failure middle ∧
        pool.Passes (some failure) [] before middle := by
  cases evicted with
  | none => exact .inl ⟨[], middle, rfl, tidy, rfl, h.unchanged⟩
  | some victim =>
    obtain ⟨id, frame⟩ := victim
    rcases writeBack_cases id frame middle with
      ⟨failure, failed⟩ | ⟨page, frame_eq, clean, run⟩ |
        ⟨page, file, data, offset, disk, meters, frame_eq, found, encode_eq, offset_eq, write_eq, run⟩
    · refine .inr ⟨failure, Action.discard_error failed, h.unwritten fun id' frame' page gone _ _ => ?_⟩
      cases gone
      exact ⟨failure, rfl, failed⟩
    · refine .inl ⟨[], middle, Action.discard_ok run, tidy, rfl, h.unwritten ?_⟩
      intro id' frame' page' gone frame_eq' dirty
      cases gone
      cases frame_eq.symm.trans frame_eq'
      cases clean.symm.trans dirty
    · have size_eq : (middle.frames.setIfInBounds frame.index (page.markDirty none)).size = middle.frames.size :=
        Array.size_setIfInBounds
      exact .inl ⟨_, _, Action.discard_ok run, tidy.congr rfl (Nat.le_of_eq size_eq.symm), rfl,
        h.written frame_eq found encode_eq offset_eq write_eq meters⟩

end GivesUp

end PoolId

end RowStore
