import RowStore.Proofs.Pool.Mirror
import RowStore.Store.Pages

/-!
# Reading and writing mirrored pages

A page is read from its file as the file has it, a page written back is in its file as it is now, and a page added at
the end of a file is without rows in the file and now.
-/

namespace RowStore.Mirrors

variable {tables : Tables} {saved current : Contents} {held : List (PageId × FrameId)} {store : Store}
  {file : TableFile} {id : PageId} {rows : PlainPage}

/-! ## The bytes of a file -/

theorem parts (h : Mirrors tables saved current held store) (mem : file ∈ tables.files) :
    ∀ rows ∈ saved file.id, (file.image rows).length = file.pageSize := by
  intro rows here
  obtain ⟨number, here⟩ := List.mem_iff_getElem?.mp here
  exact (h.saved_sound file mem number rows here).length_image (tables.opened file mem)

theorem read_eq (h : Mirrors tables saved current held store) (mem : file ∈ tables.files) :
    ∃ bytes, store.disk.read file.place = .ok bytes ∧ bytes.toList = (saved file.id).flatMap file.image ∧
      bytes.length = (saved file.id).length * file.pageSize := by
  obtain ⟨bytes, read_eq, bytes_eq⟩ := h.disk file mem
  refine ⟨bytes, read_eq, bytes_eq, ?_⟩
  rw [← Bytes.length_toList, bytes_eq, length_flatMap_parts (h.parts mem)]

theorem pageCount_eq (h : Mirrors tables saved current held store) (mem : file ∈ tables.files) :
    file.pageCount store = .ok (UInt32.ofNat (current file.id).length) store := by
  obtain ⟨bytes, read_eq, -, length_eq⟩ := h.read_eq mem
  rw [TableFile.pageCount_eq read_eq, TableFile.countPages, length_eq,
    Nat.mul_div_cancel _ (tables.opened file mem).sizes.1, h.counts]

/-! ## Reading a page -/

theorem lt_length (here : saved.page? id = some rows) : id.number.toNat < (saved id.table).length :=
  (List.getElem?_eq_some_iff.mp here).1

theorem page_end_le {number count : Nat} (size : Nat) (lt : number < count) : number * size + size ≤ count * size := by
  rw [← Nat.succ_mul]
  exact Nat.mul_le_mul_right _ lt

theorem maxFileBytes_lt : Disk.maxFileBytes < UInt64.size := by decide

theorem offset_eq (h : Mirrors tables saved current held store) (mem : file ∈ tables.files) {number : UInt32}
    (le : number.toNat ≤ (saved file.id).length) :
    (file.pageId number).offset file.pageSize = .ok (number.toNat * file.pageSize) := by
  have addressed := h.addressed file mem
  have first_le : number.toNat * file.pageSize ≤ (saved file.id).length * file.pageSize := Nat.mul_le_mul_right _ le
  have lt := maxFileBytes_lt
  have fits : number.toNat * file.pageSize < UInt64.size := by omega
  exact if_pos fits

theorem pageRange_eq (h : Mirrors tables saved current held store) (mem : file ∈ tables.files) {number : UInt32}
    (lt : number.toNat < (saved file.id).length) :
    file.pageRange number = .ok (number.toNat * file.pageSize, number.toNat * file.pageSize + file.pageSize) := by
  have addressed := h.addressed file mem
  have end_le := page_end_le file.pageSize lt
  have lt' := maxFileBytes_lt
  have fits : number.toNat * file.pageSize + file.pageSize < UInt64.size := by omega
  unfold TableFile.pageRange
  simp only [h.offset_eq mem (Nat.le_of_lt lt), if_pos fits]

theorem pageBytes_ok (h : Mirrors tables saved current held store) (mem : file ∈ tables.files)
    (table_eq : file.id = id.table) (here : saved.page? id = some rows) :
    ∃ bytes part, store.disk.read file.place = .ok bytes ∧ file.pageBytes id.number bytes = .ok part ∧
      part.toList = file.image rows := by
  obtain ⟨bytes, read_eq, bytes_eq, length_eq⟩ := h.read_eq mem
  have lt := lt_length here
  rw [← table_eq] at lt
  have end_le := page_end_le file.pageSize lt
  have enough : ¬bytes.length < id.number.toNat * file.pageSize + file.pageSize := by omega
  have here' : (saved file.id)[id.number.toNat]? = some rows := by rw [table_eq]; exact here
  refine ⟨bytes, (bytes.drop (id.number.toNat * file.pageSize)).take file.pageSize, read_eq, ?_, ?_⟩
  · unfold TableFile.pageBytes
    simp only [h.pageRange_eq mem lt, if_neg enough]
  · rw [Bytes.toList_take, Bytes.toList_drop, bytes_eq, part_flatMap_parts (h.parts mem) here']

theorem readPage_ok (h : Mirrors tables saved current held store) (mem : file ∈ tables.files)
    (table_eq : file.id = id.table) (here : saved.page? id = some rows) :
    ∃ meters, file.readPage id.number store = .ok (file.page id.number.toNat rows) { store with meters } := by
  obtain ⟨bytes, part, read_eq, part_ok, part_eq⟩ := h.pageBytes_ok mem table_eq here
  have here' : (saved file.id)[id.number.toNat]? = some rows := by rw [table_eq]; exact here
  have decode_eq := (h.saved_sound file mem _ rows here').decode_eq (tables.opened file mem) part_eq
  rw [UInt32.ofNat_toNat] at decode_eq
  unfold TableFile.readPage
  rw [Action.bind_ok (TableFile.bytes_eq read_eq), Action.bind_ok (Action.attempt_apply_ok part_ok store),
    Action.bind_ok (TableFile.count_eq ..), Action.attempt_apply_ok decode_eq]
  exact ⟨_, rfl⟩

theorem readPage_missing (h : Mirrors tables saved current held store) (mem : file ∈ tables.files)
    (table_eq : file.id = id.table) (absent : saved.page? id = none) :
    file.readPage id.number store = .error (file.missing id.number) store := by
  obtain ⟨bytes, read_eq, -, length_eq⟩ := h.read_eq mem
  have le : (saved file.id).length ≤ id.number.toNat := by
    rw [table_eq]
    exact List.getElem?_eq_none_iff.mp absent
  have beyond : (saved file.id).length * file.pageSize ≤ id.number.toNat * file.pageSize := Nat.mul_le_mul_right _ le
  have pos := (tables.opened file mem).sizes.1
  have missing : file.pageBytes id.number bytes = .error (file.missing id.number) := by
    unfold TableFile.pageBytes TableFile.missing
    split
    · next cause range_eq => rw [range_eq]
    · next first last range_eq =>
      have last_eq := TableFile.last_of_pageRange range_eq
      rw [range_eq]
      exact if_pos (by omega)
  unfold TableFile.readPage
  rw [Action.bind_ok (TableFile.bytes_eq read_eq), Action.bind_error (Action.attempt_apply_error missing store)]

/-! ## Writing a page -/

theorem writeBytes_ok (h : Mirrors tables saved current held store) (mem : file ∈ tables.files) {number : UInt32}
    (le : number.toNat ≤ (saved file.id).length) {data : Bytes} (length_eq : data.length = file.pageSize)
    (room : number.toNat * file.pageSize + file.pageSize ≤ Disk.maxFileBytes) :
    ∃ disk meters bytes, file.writeBytes number data store = .ok () { store with disk, meters } ∧
      disk.SamePaths store.disk ∧ disk.read file.place = .ok bytes ∧
      bytes.toList = ((saved file.id).flatMap file.image).take (number.toNat * file.pageSize) ++ data.toList ++
        ((saved file.id).flatMap file.image).drop (number.toNat * file.pageSize + file.pageSize) ∧
      ∀ place, place ≠ file.place → disk.read place = store.disk.read place := by
  obtain ⟨bytes, read_eq, bytes_eq, bytes_length⟩ := h.read_eq mem
  have first_le : number.toNat * file.pageSize ≤ (saved file.id).length * file.pageSize := Nat.mul_le_mul_right _ le
  have no_gap : number.toNat * file.pageSize - bytes.length = 0 := by omega
  have pos := (tables.opened file mem).sizes.1
  have written : store.disk.writeAt file.place (number.toNat * file.pageSize) data =
      .ok (store.disk.write file.place (bytes.overwrite (number.toNat * file.pageSize) data)) := by
    unfold Disk.writeAt
    simp only [read_eq]
    exact if_neg (by omega)
  refine ⟨_, _, bytes.overwrite (number.toNat * file.pageSize) data,
    TableFile.writeBytes_ok (h.offset_eq mem le) written, ⟨rfl, rfl⟩, Disk.read_writeAt_self read_eq written, ?_,
    fun place ne => Disk.read_writeAt_of_ne written ne⟩
  rw [Bytes.toList_overwrite _ _ (by omega), bytes_eq, length_eq, no_gap, List.replicate_zero, List.append_nil]

theorem disk_of_write (h : Mirrors tables saved current held store) (mem : file ∈ tables.files) {saved' : Contents}
    {disk : Disk} {bytes : Bytes} (read_eq : disk.read file.place = .ok bytes)
    (bytes_eq : bytes.toList = (saved' file.id).flatMap file.image)
    (others : ∀ place, place ≠ file.place → disk.read place = store.disk.read place)
    (same : ∀ table, table ≠ file.id → saved' table = saved table) :
    ∀ other ∈ tables.files, ∃ bytes, disk.read other.place = .ok bytes ∧
      bytes.toList = (saved' other.id).flatMap other.image := by
  intro other mem'
  by_cases eq : other = file
  · exact eq ▸ ⟨bytes, read_eq, bytes_eq⟩
  · have place_ne : other.place ≠ file.place := fun h =>
      eq (List.inj_on_of_nodup_map tables.places mem' mem h)
    have id_ne : other.id ≠ file.id := fun h => eq (List.inj_on_of_nodup_map tables.ids mem' mem h)
    rw [others _ place_ne, same _ id_ne]
    exact h.disk other mem'

theorem writePage_ok (h : Mirrors tables saved current held store) (mem : file ∈ tables.files)
    (table_eq : file.id = id.table) (here : current.page? id = some rows) (mark : Option TxnId) :
    ∃ disk meters, file.writePage ((file.page id.number.toNat rows).markDirty mark) store =
        .ok () { store with disk, meters } ∧
      disk.SamePaths store.disk ∧ ∀ other ∈ tables.files, ∃ bytes, disk.read other.place = .ok bytes ∧
        bytes.toList = (saved.setPage id rows other.id).flatMap other.image := by
  have lt : id.number.toNat < (saved file.id).length := by
    rw [h.counts, table_eq]
    exact lt_length here
  have stores : file.Stores id.number.toNat rows := h.current_sound file mem _ rows (table_eq ▸ here)
  obtain ⟨data, encode_eq, data_eq⟩ := stores.encode_eq (tables.opened file mem) mark
  have image_length := stores.length_image (tables.opened file mem)
  have data_length : data.length = file.pageSize := by rw [← Bytes.length_toList, data_eq, image_length]
  have room := Nat.le_trans (page_end_le file.pageSize lt) (h.addressed file mem)
  obtain ⟨disk, meters, bytes, write_eq, paths, read_eq, bytes_eq, others⟩ :=
    h.writeBytes_ok mem (Nat.le_of_lt lt) data_length room
  have number_eq : ((file.page id.number.toNat rows).markDirty mark).id.number = id.number := UInt32.ofNat_toNat
  refine ⟨disk, meters, ?_, paths, h.disk_of_write mem read_eq ?_ others fun table ne =>
    Contents.setTable_of_ne _ _ (table_eq ▸ ne)⟩
  · rw [TableFile.writePage_eq rfl encode_eq, number_eq, write_eq]
  · rw [bytes_eq, data_eq, flatMap_parts_set (h.parts mem) lt, Contents.setPage, ← table_eq, Contents.setTable_self]

/-! ## Changing a page in memory -/

theorem frame_lt {saved current : Contents} {frames : Array Page} {entry : PageId × FrameId}
    (h : Entry tables.files saved current frames entry) : entry.2.index < frames.size := by
  obtain ⟨_, _, _, _, _, _, frame_eq, _⟩ := h
  exact (Array.getElem?_eq_some_iff.mp frame_eq).1

theorem change (h : Mirrors tables saved current held store) {frame : FrameId} (held_mem : (id, frame) ∈ held)
    (mem : file ∈ tables.files) (table_eq : file.id = id.table) {saved' current' : Contents}
    (saved_same : saved'.SameBut id saved) (current_same : current'.SameBut id current)
    (saved_sound : saved'.Sound tables) (current_sound : current'.Sound tables) {disk : Disk}
    (paths : disk.SamePaths store.disk)
    (disk_eq : ∀ other ∈ tables.files, ∃ bytes, disk.read other.place = .ok bytes ∧
      bytes.toList = (saved' other.id).flatMap other.image)
    (here : current'.page? id = some rows) (mark : Option TxnId) (clean : mark = none → saved'.page? id = some rows)
    (meters : Array Meter) :
    Mirrors tables saved' current' held
      { store with disk, meters, frames :=
          store.frames.setIfInBounds frame.index ((file.page id.number.toNat rows).markDirty mark) } where
  catalog_eq := h.catalog_eq
  paths := paths.trans h.paths
  disk := disk_eq
  counts := fun table => by rw [saved_same.length, current_same.length, h.counts]
  numbered := fun file mem => by rw [saved_same.length]; exact h.numbered file mem
  addressed := fun file mem => by rw [saved_same.length]; exact h.addressed file mem
  saved_sound := saved_sound
  current_sound := current_sound
  ids := h.ids
  frames := h.frames
  entries := fun (id', frame') mem' => by
    by_cases same : frame' = frame
    · obtain ⟨rfl, rfl⟩ : id' = id ∧ frame' = frame := by
        have := List.inj_on_of_nodup_map h.frames mem' held_mem same
        exact Prod.mk.injEq .. ▸ this
      have lt := frame_lt (h.entries _ mem')
      exact ⟨file, mem, table_eq, rows, mark, here, by simp [lt], clean⟩
    · have id_ne : id' ≠ id := fun eq =>
        same (congrArg Prod.snd (List.inj_on_of_nodup_map h.ids mem' held_mem eq))
      have index_ne : frame.index ≠ frame'.index := fun eq => same (by cases frame; cases frame'; cases eq; rfl)
      obtain ⟨file', mem'', table_eq', rows', mark', here', frame_eq, clean'⟩ := h.entries _ mem'
      refine ⟨file', mem'', table_eq', rows', mark', ?_, ?_, fun none => ?_⟩
      · rw [current_same.page id_ne, here']
      · simp only [Array.getElem?_setIfInBounds_ne index_ne, frame_eq]
      · rw [saved_same.page id_ne, clean' none]
  others := fun id' absent => by
    have ne : id' ≠ id := fun eq => absent (eq ▸ List.mem_map_of_mem held_mem)
    rw [saved_same.page ne, current_same.page ne, h.others id' absent]

/-! ## Keeping a page, and giving it up -/

theorem saved_of_current (h : Mirrors tables saved current held store) (here : current.page? id = some rows) :
    ∃ before, saved.page? id = some before := by
  refine Option.ne_none_iff_exists'.mp fun absent => ?_
  have le := List.getElem?_eq_none_iff.mp absent
  rw [h.counts] at le
  exact Nat.not_le.mpr (lt_length here) le

theorem keep (h : Mirrors tables saved current held store) (mem : file ∈ tables.files) (table_eq : file.id = id.table)
    (here : saved.page? id = some rows) (absent : id ∉ held.map Prod.fst) (meters : Array Meter) :
    Mirrors tables saved current ((id, ⟨store.frames.size⟩) :: held)
      { store with meters, frames := store.frames.push (file.page id.number.toNat rows) } :=
  { h with
    ids := List.nodup_cons.mpr ⟨absent, h.ids⟩
    frames := by
      refine List.nodup_cons.mpr ⟨fun mem' => ?_, h.frames⟩
      obtain ⟨entry, entry_mem, frame_eq⟩ := List.mem_map.mp mem'
      have lt := frame_lt (h.entries entry entry_mem)
      rw [frame_eq] at lt
      exact Nat.lt_irrefl _ lt
    entries := fun entry mem' => by
      rcases List.mem_cons.mp mem' with rfl | mem'
      · refine ⟨file, mem, table_eq, rows, none, ?_, Array.getElem?_push_size, fun _ => here⟩
        rw [← h.others id absent, here]
      · have lt := frame_lt (h.entries entry mem')
        obtain ⟨file', mem'', table_eq', rows', mark', here', frame_eq, clean'⟩ := h.entries entry mem'
        refine ⟨file', mem'', table_eq', rows', mark', here', ?_, clean'⟩
        rw [Array.getElem?_push, if_neg (Nat.ne_of_lt lt), frame_eq]
    others := fun id' absent' => h.others id' fun mem' => absent' (List.mem_cons_of_mem _ mem') }

theorem page?_of_clean (h : Mirrors tables saved current held store) {frame : FrameId} (mem : (id, frame) ∈ held)
    (clean : store.IsClean frame) : saved.page? id = current.page? id := by
  obtain ⟨file, -, -, rows, mark, here, frame_eq, saved_eq⟩ := h.entries _ mem
  obtain ⟨page, frame_eq', clean⟩ := clean
  cases frame_eq.symm.trans frame_eq'
  rw [here, saved_eq clean]

theorem release {entry : PageId × FrameId} (h : Mirrors tables saved current (entry :: held) store)
    (clean : store.IsClean entry.2) : Mirrors tables saved current held store :=
  { h with
    ids := (List.nodup_cons.mp h.ids).2
    frames := (List.nodup_cons.mp h.frames).2
    entries := fun other mem => h.entries other (List.mem_cons_of_mem _ mem)
    others := fun id absent => by
      by_cases same : id = entry.1
      · subst same
        exact h.page?_of_clean List.mem_cons_self clean
      · exact h.others id fun mem => (List.mem_cons.mp mem).elim same absent }

theorem discard {entry : PageId × FrameId} (h : Mirrors tables saved current (entry :: held) store) :
    Mirrors tables saved (current.revert saved entry.1) held store := by
  obtain ⟨file, mem, table_eq, _, _, here, _, _⟩ := h.entries entry List.mem_cons_self
  obtain ⟨rows, saved_eq⟩ := h.saved_of_current here
  have same := Contents.sameBut_setPage current entry.1 rows
  have stores := h.saved_sound file mem entry.1.number.toNat rows (by rw [table_eq]; exact saved_eq)
  have absent := (List.nodup_cons.mp h.ids).1
  rw [Contents.revert_eq saved_eq]
  exact
    { h with
      counts := fun table => by rw [same.length, h.counts]
      current_sound := h.current_sound.setPage mem table_eq stores
      ids := (List.nodup_cons.mp h.ids).2
      frames := (List.nodup_cons.mp h.frames).2
      entries := fun other mem' => by
        have ne : other.1 ≠ entry.1 := fun eq => absent (eq ▸ List.mem_map_of_mem mem')
        obtain ⟨file', mem'', table_eq', rows', mark', here', frame_eq, clean'⟩ :=
          h.entries other (List.mem_cons_of_mem _ mem')
        exact ⟨file', mem'', table_eq', rows', mark', (same.page ne).trans here', frame_eq, clean'⟩
      others := fun id absent' => by
        by_cases eq : id = entry.1
        · subst eq
          rw [Contents.page?_setPage_self here, saved_eq]
        · rw [same.page eq]
          exact h.others id fun mem' => (List.mem_cons.mp mem').elim eq absent' }

/-! ## Adding a page -/

theorem append (h : Mirrors tables saved current held store) (mem : file ∈ tables.files)
    (room : (current file.id).length < UInt32.size)
    (fits : ((current file.id).length + 1) * file.pageSize ≤ Disk.maxFileBytes) :
    ∃ disk meters, file.appendPage store =
        .ok (UInt32.ofNat (current file.id).length) { store with disk, meters } ∧
      Mirrors tables (saved.addPage file.id file.blankPage) (current.addPage file.id file.blankPage) held
        { store with disk, meters } := by
  have opened := tables.opened file mem
  have small := opened.pageSize_lt
  have number_eq : (UInt32.ofNat (current file.id).length).toNat = (saved file.id).length := by
    rw [UInt32.toNat_ofNat', h.counts]
    exact Nat.mod_eq_of_lt room
  have fits' : (UInt32.ofNat (current file.id).length).toNat * file.pageSize + file.pageSize ≤ Disk.maxFileBytes := by
    rw [number_eq, h.counts, ← Nat.succ_mul]
    exact fits
  obtain ⟨disk, meters, bytes, write_eq, paths, read_eq, bytes_eq, others⟩ :=
    h.writeBytes_ok mem (Nat.le_of_eq number_eq) (Bytes.length_zeros file.pageSize) fits'
  have whole : ((saved file.id).flatMap file.image).length = (saved file.id).length * file.pageSize :=
    length_flatMap_parts (h.parts mem)
  have appended : bytes.toList = (saved.addPage file.id file.blankPage file.id).flatMap file.image := by
    rw [bytes_eq, number_eq, Bytes.toList_zeros, List.take_of_length_le (Nat.le_of_eq whole),
      List.drop_of_length_le (by omega), Contents.addPage, Contents.setTable_self, List.flatMap_append,
      List.flatMap_singleton, TableFile.image_blankPage opened, List.append_nil]
  refine ⟨disk, meters, ?_, ?_⟩
  · unfold TableFile.appendPage
    rw [Action.bind_ok (h.pageCount_eq mem), Action.bind_ok (Action.guard_apply_ok (Page.blank_eq_ok small) store),
      Action.bind_ok write_eq]
    rfl
  · exact
      { h with
        paths := paths.trans h.paths
        disk := h.disk_of_write mem read_eq appended others fun table ne => Contents.setTable_of_ne _ _ ne
        counts := fun table => by
          unfold Contents.addPage Contents.setTable
          split
          · rw [List.length_append, List.length_append, h.counts]
          · exact h.counts table
        numbered := fun other mem' => by
          unfold Contents.addPage Contents.setTable
          split
          · next same =>
            rw [List.length_append, h.counts]
            exact room
          · exact h.numbered other mem'
        addressed := fun other mem' => by
          unfold Contents.addPage Contents.setTable
          split
          · next same =>
            cases List.inj_on_of_nodup_map tables.ids mem' mem same
            rw [List.length_append, h.counts]
            exact fits
          · exact h.addressed other mem'
        saved_sound := h.saved_sound.addPage mem
        current_sound := h.current_sound.addPage mem
        entries := fun entry mem' => by
          obtain ⟨file', mem'', table_eq', rows', mark', here', frame_eq, clean'⟩ := h.entries entry mem'
          exact ⟨file', mem'', table_eq', rows', mark', Contents.page?_addPage_of_some here' _ _, frame_eq,
            fun none => Contents.page?_addPage_of_some (clean' none) _ _⟩
        others := fun id absent => by
          rw [Contents.page?_addPage, Contents.page?_addPage, h.counts, h.others id absent] }

theorem append_error (h : Mirrors tables saved current held store) (mem : file ∈ tables.files)
    (room : (current file.id).length < UInt32.size)
    (unfit : Disk.maxFileBytes < ((current file.id).length + 1) * file.pageSize) :
    file.appendPage store = .error (.refused .fileSystem) store := by
  obtain ⟨bytes, read_eq, -, -⟩ := h.read_eq mem
  have small := (tables.opened file mem).pageSize_lt
  have number_eq : (UInt32.ofNat (current file.id).length).toNat = (saved file.id).length := by
    rw [UInt32.toNat_ofNat', h.counts]
    exact Nat.mod_eq_of_lt room
  have refused : store.disk.writeAt file.place ((UInt32.ofNat (current file.id).length).toNat * file.pageSize)
      (.zeros file.pageSize) = .error .fileSystem := by
    unfold Disk.writeAt
    simp only [read_eq]
    rw [Bytes.length_zeros, number_eq, h.counts, ← Nat.succ_mul]
    exact if_pos unfit
  unfold TableFile.appendPage
  rw [Action.bind_ok (h.pageCount_eq mem), Action.bind_ok (Action.guard_apply_ok (Page.blank_eq_ok small) store)]
  refine Action.bind_error ?_
  exact TableFile.writeBytes_error (h.offset_eq mem (Nat.le_of_eq number_eq)) refused

end RowStore.Mirrors
