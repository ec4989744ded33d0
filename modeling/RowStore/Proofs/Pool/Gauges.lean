import Mathlib.Logic.Function.Basic
import RowStore.Proofs.Pool.PagesOnDisk

/-!
# Free slots in memory and on the disk

Of every file it is known how long it is, and of pages how many of their slots are free. `Gauges` says where the pages
have them: a page in memory has them there, and if it has no mark, or is not in memory, its file has it so. It says
nothing of the slots of pages that it is not sure of. What the files had at first is not asked, and neither is that they
can be written.
-/

namespace RowStore

/-! ## Pages in memory -/

namespace Page

variable {page kept : Page} {file : TableFile} {disk : Disk} {number : UInt32} {sure : Prop}

/-- A page in memory while its file has `kept` for it. Where this is sure, its rows were not changed without a mark. -/
structure Over (page : Page) (file : TableFile) (number : UInt32) (kept : Page) (sure : Prop) : Prop where
  is : page.Of file number
  framed : page.Framed
  formed : page.Formed
  clean : sure → page.dirtier = none → kept.freeCount = page.freeCount

theorem Framed.markDirty (h : page.Framed) (txn : Option TxnId) : (page.markDirty txn).Framed :=
  ⟨h.size_lt, h.slotCount_eq, h.flags_eq⟩

theorem Over.ofRead (h : file.pageOn disk number = .ok page) : page.Over file number page sure := by
  obtain ⟨is, framed, formed, -⟩ := TableFile.of_pageOn h
  exact ⟨is, framed, formed, fun _ _ => rfl⟩

theorem Over.written (h : page.Over file number kept sure) :
    (page.markDirty none).Over file number page.reread sure where
  is := h.is.becomes (becomes_markDirty page none)
  framed := h.framed.markDirty none
  formed := h.formed
  clean _ _ := freeCount_reread page

theorem Over.mono {sure' : Prop} (h : page.Over file number kept sure) (less : sure' → sure) :
    page.Over file number kept sure' := ⟨h.is, h.framed, h.formed, fun still => h.clean (less still)⟩

theorem Over.pageOn_write (h : page.Over file number kept sure) {bytes data : Bytes} (pos : 0 < file.pageSize)
    (range_lt : number.toNat * file.pageSize + file.pageSize < UInt64.size) (encoded : page.encode = .ok data) :
    file.pageOn (disk.write file.place (bytes.overwrite (number.toNat * file.pageSize) data)) number =
      .ok page.reread := by
  have length_data : data.length = file.pageSize := (Page.length_encode encoded).trans h.is.size_eq
  have something : data.length ≠ 0 := by omega
  obtain ⟨image, encoded', image_eq⟩ := h.framed.encode_eq h.formed.even
  cases encoded.symm.trans encoded'
  rw [TableFile.pageOn_write_self range_lt something length_data, ← h.is.id_eq, ← h.is.schema_eq]
  exact h.framed.decode_eq h.formed image_eq

end Page

/-! ## Files and pages -/

/-- The page of a handle has as many free slots as are known of it, and its file has a page for it. -/
def Gauges.Entry (files : List TableFile) (sure : PageId → Prop) (free : PageId → Option Nat) (store : Store)
    (entry : PageId × FrameId) : Prop :=
  ∃ file ∈ files, file.id = entry.1.table ∧ ∃ page kept, store.frames[entry.2.index]? = some page ∧
    (sure entry.1 → free entry.1 = some page.freeCount) ∧ file.pageOn store.disk entry.1.number = .ok kept ∧
    page.Over file entry.1.number kept (sure entry.1)

/-- The files have these lengths, and the pages that are sure have so many free slots, those of `held` in memory and the
others in their files. -/
structure Gauges (tables : Tables) (lengths : TableId → Nat) (sure : PageId → Prop) (free : PageId → Option Nat)
    (held : List (PageId × FrameId)) (store : Store) : Prop where
  catalog_eq : ∀ table, store.catalog.file table = TableFile.among tables.files table
  lengths : ∀ file ∈ tables.files, ∃ bytes, store.disk.read file.place = .ok bytes ∧ bytes.length = lengths file.id
  ids : (held.map Prod.fst).Nodup
  frames : (held.map Prod.snd).Nodup
  entries : ∀ entry ∈ held, Gauges.Entry tables.files sure free store entry
  others : ∀ file ∈ tables.files, ∀ number, file.pageId number ∉ held.map Prod.fst → sure (file.pageId number) →
    free (file.pageId number) = (file.pageOn store.disk number).toOption.map Page.freeCount

namespace Gauges

variable {tables : Tables} {lengths : TableId → Nat} {sure : PageId → Prop} {free : PageId → Option Nat}
  {held held' : List (PageId × FrameId)} {store : Store} {file : TableFile} {id : PageId} {frame : FrameId}
  {entry : PageId × FrameId} {page kept : Page}

theorem congr (h : Gauges tables lengths sure free held store) (store' : Store) (disk_eq : store'.disk = store.disk)
    (catalog_eq : store'.catalog = store.catalog) (frames_eq : store'.frames = store.frames) :
    Gauges tables lengths sure free held store' where
  catalog_eq := catalog_eq ▸ h.catalog_eq
  lengths := disk_eq ▸ h.lengths
  ids := h.ids
  frames := h.frames
  entries := by
    unfold Entry
    rw [disk_eq, frames_eq]
    exact h.entries
  others := disk_eq ▸ h.others

theorem perm (h : Gauges tables lengths sure free held store) (perm : held.Perm held') :
    Gauges tables lengths sure free held' store where
  catalog_eq := h.catalog_eq
  lengths := h.lengths
  ids := (perm.map Prod.fst).nodup_iff.mp h.ids
  frames := (perm.map Prod.snd).nodup_iff.mp h.frames
  entries entry mem := h.entries entry (perm.mem_iff.mpr mem)
  others file mem number absent :=
    h.others file mem number fun mem' => absent ((perm.map Prod.fst).mem_iff.mp mem')

theorem mono (h : Gauges tables lengths sure free held store) {sure' : PageId → Prop}
    (less : ∀ id, sure' id → sure id) : Gauges tables lengths sure' free held store where
  catalog_eq := h.catalog_eq
  lengths := h.lengths
  ids := h.ids
  frames := h.frames
  entries entry mem := by
    obtain ⟨file, mem', table_eq, page, kept, page_eq, free_eq, read, above⟩ := h.entries entry mem
    exact ⟨file, mem', table_eq, page, kept, page_eq, fun still => free_eq (less _ still), read, above.mono (less _)⟩
  others file mem number absent still := h.others file mem number absent (less _ still)

/-! ## Pages that come and go -/

theorem keep (h : Gauges tables lengths sure free held store) (mem : file ∈ tables.files)
    (table_eq : file.id = id.table) (read : file.pageOn store.disk id.number = .ok page)
    (absent : id ∉ held.map Prod.fst) (meters : Array Meter) :
    Gauges tables lengths sure free ((id, ⟨store.frames.size⟩) :: held)
      { store with meters, frames := store.frames.push page } where
  catalog_eq := h.catalog_eq
  lengths := h.lengths
  ids := List.nodup_cons.mpr ⟨absent, h.ids⟩
  frames := by
    refine List.nodup_cons.mpr ⟨fun mem' => ?_, h.frames⟩
    obtain ⟨entry, entry_mem, frame_eq⟩ := List.mem_map.mp mem'
    obtain ⟨-, -, -, page', -, page_eq, -⟩ := h.entries entry entry_mem
    have lt := (Array.getElem?_eq_some_iff.mp page_eq).1
    rw [frame_eq] at lt
    exact Nat.lt_irrefl _ lt
  entries := by
    intro entry mem'
    rcases List.mem_cons.mp mem' with rfl | mem'
    · have id_eq : file.pageId id.number = id := by rw [TableFile.pageId, table_eq]
      have free_eq := h.others file mem id.number (id_eq.symm ▸ absent)
      rw [id_eq, read] at free_eq
      exact ⟨file, mem, table_eq, page, page, Array.getElem?_push_size, free_eq, read, .ofRead read⟩
    · obtain ⟨file', mem'', table_eq', page', kept', page_eq, rest⟩ := h.entries entry mem'
      have lt := (Array.getElem?_eq_some_iff.mp page_eq).1
      refine ⟨file', mem'', table_eq', page', kept', ?_, rest⟩
      rw [Array.getElem?_push, if_neg (Nat.ne_of_lt lt), page_eq]
  others file' mem' number absent' := h.others file' mem' number fun mem'' => absent' (List.mem_cons_of_mem _ mem'')

theorem release (h : Gauges tables lengths sure free (entry :: held) store) (clean : store.IsClean entry.2) :
    Gauges tables lengths sure free held store where
  catalog_eq := h.catalog_eq
  lengths := h.lengths
  ids := (List.nodup_cons.mp h.ids).2
  frames := (List.nodup_cons.mp h.frames).2
  entries entry' mem := h.entries entry' (List.mem_cons_of_mem _ mem)
  others := by
    intro file mem number absent still
    by_cases same : file.pageId number = entry.1
    · obtain ⟨file', mem', table_eq, page, kept, page_eq, free_eq, read, above⟩ := h.entries entry List.mem_cons_self
      obtain ⟨page', page_eq', unmarked⟩ := clean
      cases page_eq.symm.trans page_eq'
      rw [← same] at table_eq read free_eq above
      cases List.inj_on_of_nodup_map tables.ids mem' mem table_eq
      have read : file.pageOn store.disk number = .ok kept := read
      rw [free_eq still, read, ← above.clean still unmarked]
      rfl
    · refine h.others file mem number (fun mem' => ?_) still
      exact (List.mem_cons.mp mem').elim same absent

theorem forget (h : Gauges tables lengths sure free (entry :: held) store) :
    ∃ free', Gauges tables lengths sure free' held store := by
  obtain ⟨file, mem, table_eq, page, kept, page_eq, free_eq, read, above⟩ := h.entries entry List.mem_cons_self
  have absent : entry.1 ∉ held.map Prod.fst := (List.nodup_cons.mp h.ids).1
  -- What the file has is all that is left of the page, so its free slots are counted there.
  refine ⟨Function.update free entry.1 (some kept.freeCount), ?_⟩
  constructor
  case catalog_eq => exact h.catalog_eq
  case lengths => exact h.lengths
  case ids => exact (List.nodup_cons.mp h.ids).2
  case frames => exact (List.nodup_cons.mp h.frames).2
  case entries =>
    intro entry' mem'
    have ne : entry'.1 ≠ entry.1 := fun eq => absent (eq ▸ List.mem_map_of_mem mem')
    unfold Entry
    rw [Function.update_of_ne ne]
    exact h.entries entry' (List.mem_cons_of_mem _ mem')
  case others =>
    intro file' mem' number absent' still
    by_cases same : file'.pageId number = entry.1
    · rw [← same] at table_eq read ⊢
      cases List.inj_on_of_nodup_map tables.ids mem mem' table_eq
      have read : file.pageOn store.disk number = .ok kept := read
      rw [Function.update_self, read]
      rfl
    · rw [Function.update_of_ne same]
      exact h.others file' mem' number (fun mem'' => (List.mem_cons.mp mem'').elim same absent') still

/-! ## Pages that change -/

/-- All pages have as many free slots as before, but for one, which has `count` if it is sure. -/
structure Recounts (sure : PageId → Prop) (free free' : PageId → Option Nat) (id : PageId) (count : Nat) : Prop where
  elsewhere : ∀ other, other ≠ id → free' other = free other
  here : sure id → free' id = some count

theorem Recounts.same {count : Nat} (h : sure id → free id = some count) : Recounts sure free free id count :=
  ⟨fun _ _ => rfl, h⟩

theorem Recounts.update (count : Nat) : Recounts sure free (Function.update free id (some count)) id count :=
  ⟨fun _ ne => Function.update_of_ne ne .., fun _ => Function.update_self ..⟩

theorem change (h : Gauges tables lengths sure free held store) (held_mem : (id, frame) ∈ held)
    (mem : file ∈ tables.files) (table_eq : file.id = id.table) {disk : Disk}
    (but : Disk.PagesBut tables.files id store.disk disk)
    (lengths_eq : ∀ other ∈ tables.files, ∃ bytes, disk.read other.place = .ok bytes ∧
      bytes.length = lengths other.id)
    (read : file.pageOn disk id.number = .ok kept) (above : page.Over file id.number kept (sure id))
    {free' : PageId → Option Nat} (recounts : Recounts sure free free' id page.freeCount) (meters : Array Meter) :
    Gauges tables lengths sure free' held
      { store with disk, meters, frames := store.frames.setIfInBounds frame.index page } where
  catalog_eq := h.catalog_eq
  lengths := lengths_eq
  ids := h.ids
  frames := h.frames
  entries := by
    rintro ⟨id', frame'⟩ mem'
    obtain ⟨file', mem'', table_eq', page', kept', page_eq, free_eq, read', above'⟩ := h.entries _ mem'
    by_cases same : id' = id
    · obtain rfl := same
      cases List.inj_on_of_nodup_map h.ids mem' held_mem rfl
      have lt := (Array.getElem?_eq_some_iff.mp page_eq).1
      exact ⟨file, mem, table_eq, page, kept, Array.getElem?_setIfInBounds_self_of_lt lt, recounts.here, read, above⟩
    · have index_ne : frame.index ≠ frame'.index := fun eq =>
        same (congrArg Prod.fst (List.inj_on_of_nodup_map h.frames mem' held_mem (congrArg FrameId.mk eq.symm)))
      have id_ne : file'.pageId id'.number ≠ id := by
        rw [TableFile.pageId, table_eq']
        exact same
      refine ⟨file', mem'', table_eq', page', kept', ?_, ?_, ?_, above'⟩
      · exact (Array.getElem?_setIfInBounds_ne index_ne).trans page_eq
      · exact fun still => (recounts.elsewhere _ same).trans (free_eq still)
      · rw [but file' mem'' _ id_ne, read']
  others := by
    intro file' mem' number absent still
    have ne : file'.pageId number ≠ id := fun eq => absent (eq ▸ List.mem_map_of_mem held_mem)
    rw [recounts.elsewhere _ ne, but file' mem' number ne]
    exact h.others file' mem' number absent still

theorem setPage (h : Gauges tables lengths sure free held store) (held_mem : (id, frame) ∈ held)
    (mem : file ∈ tables.files) (table_eq : file.id = id.table) (read : file.pageOn store.disk id.number = .ok kept)
    (above : page.Over file id.number kept (sure id)) {free' : PageId → Option Nat}
    (recounts : Recounts sure free free' id page.freeCount) :
    Gauges tables lengths sure free' held { store with frames := store.frames.setIfInBounds frame.index page } :=
  h.change held_mem mem table_eq (.refl _ _ _) h.lengths read above recounts store.meters

/-! ## Bytes that are written -/

variable {bytes data : Bytes} {offset : Nat} {disk : Disk}

theorem lengths_write (h : Gauges tables lengths sure free held store) (mem : file ∈ tables.files)
    (read_eq : store.disk.read file.place = .ok bytes) (something : data.length ≠ 0) (offset : Nat) :
    ∀ other ∈ tables.files, ∃ bytes',
      (store.disk.write file.place (bytes.overwrite offset data)).read other.place = .ok bytes' ∧
        bytes'.length = Function.update lengths file.id (max bytes.length (offset + data.length)) other.id := by
  intro other other_mem
  by_cases same : other = file
  · subst same
    refine ⟨_, Disk.read_write_self .., ?_⟩
    rw [Bytes.length_overwrite _ _ something, Function.update_self]
  · have place_ne : other.place ≠ file.place := fun eq =>
      same (List.inj_on_of_nodup_map tables.places other_mem mem eq)
    have id_ne : other.id ≠ file.id := fun eq => same (List.inj_on_of_nodup_map tables.ids other_mem mem eq)
    rw [Disk.read_write_of_ne _ _ place_ne, Function.update_of_ne id_ne]
    exact h.lengths other other_mem

theorem length_eq (h : Gauges tables lengths sure free held store) (mem : file ∈ tables.files)
    (read_eq : store.disk.read file.place = .ok bytes) : bytes.length = lengths file.id := by
  obtain ⟨bytes', read_eq', length_eq⟩ := h.lengths file mem
  cases read_eq.symm.trans read_eq'
  exact length_eq

theorem save (h : Gauges tables lengths sure free held store) (held_mem : (id, frame) ∈ held)
    (page_eq : store.frames[frame.index]? = some page) (found : store.catalog.file id.table = .ok file)
    (encoded : page.encode = .ok data) (offset_eq : (file.pageId page.id.number).offset file.pageSize = .ok offset)
    (write_eq : store.disk.writeAt file.place offset data = .ok disk) (meters : Array Meter) :
    Gauges tables lengths sure free held
      { store with disk, meters, frames := store.frames.setIfInBounds frame.index (page.markDirty none) } := by
  obtain ⟨file', mem, table_eq, page', kept, page_eq', free_eq, read, above⟩ := h.entries _ held_mem
  cases page_eq.symm.trans page_eq'
  rw [h.catalog_eq, ← table_eq, tables.among_eq mem] at found
  cases found
  obtain ⟨-, -, -, -, bytes, read_eq, enough⟩ := TableFile.of_pageOn read
  change id.number.toNat * file.pageSize + file.pageSize ≤ bytes.length at enough
  have pos := (tables.opened file mem).sizes.1
  have length_data : data.length = file.pageSize := (Page.length_encode encoded).trans above.is.size_eq
  have something : data.length ≠ 0 := by omega
  have fits := Disk.le_of_writeAt write_eq
  obtain rfl := Disk.eq_of_writeAt read_eq write_eq
  have offset_eq : offset = id.number.toNat * file.pageSize := by
    rw [PageId.eq_of_offset offset_eq, above.is.id_eq]
    rfl
  subst offset_eq
  have range_lt : id.number.toNat * file.pageSize + file.pageSize < UInt64.size := by
    have := Mirrors.maxFileBytes_lt
    omega
  have id_eq : file.pageId id.number = id := by rw [TableFile.pageId, table_eq]
  have inside : id.number.toNat * file.pageSize ≤ bytes.length := Nat.le_trans (Nat.le_add_right ..) enough
  have but := Disk.PagesBut.write tables.places mem pos read_eq inside length_data
  rw [id_eq] at but
  have lengths_eq := h.lengths_write mem read_eq something (id.number.toNat * file.pageSize)
  have length_same : max bytes.length (id.number.toNat * file.pageSize + data.length) = lengths file.id := by
    have := h.length_eq mem read_eq
    omega
  rw [length_same, Function.update_eq_self] at lengths_eq
  exact h.change held_mem mem table_eq but lengths_eq (above.pageOn_write pos range_lt encoded) above.written
    (.same free_eq) meters

theorem writeBack (h : Gauges tables lengths sure free held store) (held_mem : (id, frame) ∈ held) :
    (∃ failure, PoolId.writeBack id frame store = .error failure store) ∨
      ∃ written store', PoolId.writeBack id frame store = .ok written store' ∧
        Gauges tables lengths sure free held store' ∧ store'.pools = store.pools ∧ store'.IsClean frame := by
  rcases PoolId.writeBack_cases id frame store with
    failed | ⟨page, page_eq, clean, run⟩ |
      ⟨page, file, data, offset, disk, meters, page_eq, found, encoded, offset_eq, write_eq, run⟩
  · exact .inl failed
  · have unmarked : page.dirtier = none := by simpa [Page.isDirty] using clean
    exact .inr ⟨false, store, run, h, rfl, page, page_eq, unmarked⟩
  · have lt := (Array.getElem?_eq_some_iff.mp page_eq).1
    exact .inr ⟨true, _, run, h.save held_mem page_eq found encoded offset_eq write_eq meters, rfl, page.markDirty none,
      Array.getElem?_setIfInBounds_self_of_lt lt, rfl⟩

/-! ## Pages that are added -/

theorem not_held (h : Gauges tables lengths sure free held store) (mem : file ∈ tables.files) {number : UInt32}
    (past : lengths file.id < number.toNat * file.pageSize + file.pageSize) :
    file.pageId number ∉ held.map Prod.fst := by
  intro mem'
  obtain ⟨entry, entry_mem, id_eq⟩ := List.mem_map.mp mem'
  obtain ⟨file', mem'', table_eq, page, kept, -, -, read, -⟩ := h.entries entry entry_mem
  rw [id_eq] at table_eq read
  cases List.inj_on_of_nodup_map tables.ids mem'' mem table_eq
  obtain ⟨-, -, -, -, bytes, read_eq, enough⟩ := TableFile.of_pageOn read
  change number.toNat * file.pageSize + file.pageSize ≤ bytes.length at enough
  have := h.length_eq mem read_eq
  omega

/-- A page that is not in memory comes to a file, or takes the place of the one there, while all other pages stay. It is
sure how many slots this page has free. -/
theorem add (h : Gauges tables lengths sure free held store) (mem : file ∈ tables.files) {number : UInt32}
    (absent : file.pageId number ∉ held.map Prod.fst) {disk : Disk}
    (but : Disk.PagesBut tables.files (file.pageId number) store.disk disk) {lengths' : TableId → Nat}
    (lengths_eq : ∀ other ∈ tables.files, ∃ bytes, disk.read other.place = .ok bytes ∧
      bytes.length = lengths' other.id)
    (read : file.pageOn disk number = .ok page) (meters : Array Meter) :
    Gauges tables lengths' (fun id => sure id ∨ id = file.pageId number)
      (Function.update free (file.pageId number) (some page.freeCount)) held { store with disk, meters } where
  catalog_eq := h.catalog_eq
  lengths := lengths_eq
  ids := h.ids
  frames := h.frames
  entries := by
    intro entry held_mem
    obtain ⟨file', mem', table_eq, page', kept, page_eq, free_eq, read', above⟩ := h.entries entry held_mem
    have ne : entry.1 ≠ file.pageId number := fun eq => absent (eq ▸ List.mem_map_of_mem held_mem)
    have id_ne : file'.pageId entry.1.number ≠ file.pageId number := by
      rw [TableFile.pageId, table_eq]
      exact ne
    have still_of (known : sure entry.1 ∨ entry.1 = file.pageId number) : sure entry.1 := known.resolve_right ne
    refine ⟨file', mem', table_eq, page', kept, page_eq, fun known => ?_, ?_, above.mono still_of⟩
    · rw [Function.update_of_ne ne, free_eq (still_of known)]
    · rw [but file' mem' _ id_ne, read']
  others := by
    intro file' mem' number' absent' known
    by_cases same : file'.pageId number' = file.pageId number
    · cases List.inj_on_of_nodup_map tables.ids mem' mem (congrArg PageId.table same)
      have number_eq : number' = number := congrArg PageId.number same
      rw [number_eq, Function.update_self, read]
      rfl
    · rw [Function.update_of_ne same, but file' mem' number' same]
      exact h.others file' mem' number' absent' (known.resolve_right same)

theorem append (h : Gauges tables lengths sure free held store) (mem : file ∈ tables.files)
    (room : lengths file.id / file.pageSize < UInt32.size) :
    (∃ failure, file.appendPage store = .error failure store) ∨
      ∃ number disk meters, file.appendPage store = .ok number { store with disk, meters } ∧
        number.toNat = lengths file.id / file.pageSize ∧ file.pageId number ∉ held.map Prod.fst ∧
        Gauges tables (Function.update lengths file.id ((number.toNat + 1) * file.pageSize))
          (fun id => sure id ∨ id = file.pageId number)
          (Function.update free (file.pageId number) (some file.slots)) held { store with disk, meters } := by
  obtain ⟨bytes, read_eq, length_bytes⟩ := h.lengths file mem
  have opened := tables.opened file mem
  have pos := opened.sizes.1
  have counted : file.pageCount store = .ok (UInt32.ofNat (lengths file.id / file.pageSize)) store := by
    rw [TableFile.pageCount_eq read_eq, TableFile.countPages, length_bytes]
  have blank := Action.guard_apply_ok (Page.blank_eq_ok opened.pageSize_lt) store
  generalize number_eq : UInt32.ofNat (lengths file.id / file.pageSize) = number at counted
  have toNat_eq : number.toNat = lengths file.id / file.pageSize := by
    rw [← number_eq, UInt32.toNat_ofNat']
    exact Nat.mod_eq_of_lt room
  unfold TableFile.appendPage
  rw [Action.bind_ok counted, Action.bind_ok blank]
  rcases file.writeBytes_cases number (.zeros file.pageSize) store with
    ⟨failure, failed⟩ | ⟨offset, disk, meters, offset_eq, write_eq, run⟩
  · exact .inl ⟨failure, Action.bind_error failed⟩
  refine .inr ⟨number, disk, meters, Action.bind_ok run, toNat_eq, ?_⟩
  have length_data := Bytes.length_zeros file.pageSize
  have something : (Bytes.zeros file.pageSize).length ≠ 0 := by omega
  have fits := Disk.le_of_writeAt write_eq
  obtain rfl := Disk.eq_of_writeAt read_eq write_eq
  have offset_eq : offset = number.toNat * file.pageSize := PageId.eq_of_offset offset_eq
  subst offset_eq
  have inside : number.toNat * file.pageSize ≤ bytes.length := by
    rw [toNat_eq, length_bytes]
    exact Nat.div_mul_le_self ..
  have past : lengths file.id < number.toNat * file.pageSize + file.pageSize := by
    rw [toNat_eq, ← Nat.succ_mul, Nat.mul_comm]
    exact Nat.lt_mul_div_succ _ pos
  have range_lt : number.toNat * file.pageSize + file.pageSize < UInt64.size := by
    have := Mirrors.maxFileBytes_lt
    omega
  have absent := h.not_held mem past
  have but := Disk.PagesBut.write tables.places mem pos read_eq inside length_data
  have lengths_eq := h.lengths_write mem read_eq something (number.toNat * file.pageSize)
  have length_more : max bytes.length (number.toNat * file.pageSize + (Bytes.zeros file.pageSize).length) =
      (number.toNat + 1) * file.pageSize := by
    rw [Nat.succ_mul]
    omega
  rw [length_more] at lengths_eq
  have read : file.pageOn
      (store.disk.write file.place (bytes.overwrite (number.toNat * file.pageSize) (.zeros file.pageSize))) number =
        .ok (.fresh (file.pageId number) file.schema file.pageSize) := by
    rw [TableFile.pageOn_write_self range_lt something length_data]
    exact Page.decode_zeros opened.sizes.2.1 _ _
  have gauges := h.add mem absent but lengths_eq read meters
  rw [Page.freeCount_fresh] at gauges
  exact ⟨absent, gauges⟩

end Gauges

end RowStore
