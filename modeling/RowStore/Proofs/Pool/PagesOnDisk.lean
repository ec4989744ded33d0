import RowStore.Proofs.Codec.Reload
import RowStore.Proofs.Pool.PageWrites

/-!
# Pages on the disk

The page that a file has under a number, as it would be read. Where a page is written inside its file or at the end of
it, all other pages stay as they are. A page that is written and read again has as many free slots as before.
-/

namespace RowStore

/-! ## Free slots -/

namespace Page

variable {id : PageId} {schema : Schema} {size : Nat}

theorem freeCount_eq_count (page : Page) : page.freeCount = (page.slots.map Slot.used).count false := by
  rw [freeCount, List.count, List.countP_map]
  congr 1
  funext slot
  cases used : slot.used <;> simp [used]

theorem map_used_reread (page : Page) : page.reread.slots.map Slot.used = page.slots.map Slot.used := by
  refine List.ext_getElem? fun index => ?_
  rw [List.getElem?_map, List.getElem?_map, reread, List.getElem?_mapIdx]
  cases page.slots[index]? with
  | none => rfl
  | some slot =>
    simp only [Option.map_some, Slot.reread]
    cases slot.used <;> rfl

@[simp] theorem freeCount_reread (page : Page) : page.reread.freeCount = page.freeCount := by
  rw [freeCount_eq_count, map_used_reread, ← freeCount_eq_count]

theorem freeCount_fresh : (fresh id schema size).freeCount = Layout.slotCount size schema.width := by
  simp [freeCount, fresh, List.countP_replicate, Slot.free]

end Page

/-! ## The page that a file has -/

namespace TableFile

variable {file : TableFile} {disk disk' : Disk} {number : UInt32} {bytes bytes' data : Bytes} {page : Page}

/-- The page that the file has on a disk under a number. -/
def pageOn (file : TableFile) (disk : Disk) (number : UInt32) : Except Failure Page := do
  let bytes ← Failure.ofCheck (disk.read file.place)
  let part ← file.pageBytes number bytes
  Page.decode (file.pageId number) file.schema part

theorem readPage_ends (file : TableFile) (number : UInt32) (store : Store) :
    ∃ meters, (file.readPage number).Ends store (file.pageOn store.disk number) { store with meters } := by
  unfold readPage pageOn
  cases read_eq : store.disk.read file.place with
  | error e => exact ⟨_, Action.bind_error (Action.check_apply_error read_eq store)⟩
  | ok bytes =>
    have run := bytes_eq read_eq
    simp only [Failure.ofCheck_ok, bind, Except.bind]
    cases part_eq : file.pageBytes number bytes with
    | error failure =>
      exact ⟨_, (Action.bind_ok run).trans (Action.bind_error (Action.attempt_apply_error part_eq store))⟩
    | ok part =>
      have parted := Action.attempt_apply_ok part_eq store
      dsimp only
      cases decode_eq : Page.decode (file.pageId number) file.schema part with
      | error failure =>
        exact ⟨_, (Action.bind_ok run).trans ((Action.bind_ok parted).trans ((Action.bind_ok (count_eq ..)).trans
          (Action.attempt_apply_error decode_eq _)))⟩
      | ok page =>
        exact ⟨_, (Action.bind_ok run).trans ((Action.bind_ok parted).trans ((Action.bind_ok (count_eq ..)).trans
          (Action.attempt_apply_ok decode_eq _)))⟩

theorem pageRange_eq_ok {first last : Nat} (h : file.pageRange number = .ok (first, last)) :
    first = number.toNat * file.pageSize ∧ last = number.toNat * file.pageSize + file.pageSize ∧
      last < UInt64.size := by
  unfold pageRange at h
  split at h
  · cases h
  · next offset offset_eq =>
    split at h
    · next lt =>
      cases h
      unfold PageId.offset at offset_eq
      dsimp only at offset_eq
      split at offset_eq
      · cases offset_eq
        exact ⟨rfl, rfl, lt⟩
      · cases offset_eq
    · cases h

theorem pageRange_of_lt (lt : number.toNat * file.pageSize + file.pageSize < UInt64.size) :
    file.pageRange number = .ok (number.toNat * file.pageSize, number.toNat * file.pageSize + file.pageSize) := by
  have first_lt : number.toNat * file.pageSize < UInt64.size := by omega
  have offset_eq : (file.pageId number).offset file.pageSize = .ok (number.toNat * file.pageSize) := if_pos first_lt
  unfold pageRange
  simp only [offset_eq, if_pos lt]

theorem of_pageOn (h : file.pageOn disk number = .ok page) :
    page.Of file number ∧ page.Framed ∧ page.Formed ∧ page.dirtier = none ∧
      ∃ bytes, disk.read file.place = .ok bytes ∧
        number.toNat * file.pageSize + file.pageSize ≤ bytes.length := by
  unfold pageOn at h
  cases read_eq : disk.read file.place with
  | error e => simp [read_eq, bind, Except.bind] at h
  | ok bytes =>
    simp only [read_eq, Failure.ofCheck_ok, bind, Except.bind] at h
    cases part_eq : file.pageBytes number bytes with
    | error failure => simp [part_eq] at h
    | ok part =>
      simp only [part_eq] at h
      unfold pageBytes at part_eq
      split at part_eq
      · cases part_eq
      · next first last range_eq =>
        obtain ⟨rfl, rfl, -⟩ := pageRange_eq_ok range_eq
        split at part_eq
        · cases part_eq
        · next enough =>
          cases part_eq
          obtain ⟨id_eq, schema_eq, size_eq, clean, framed, -⟩ := Page.decode_eq_ok h
          refine ⟨⟨id_eq, schema_eq, ?_⟩, framed, Page.formed_of_decode h, clean, bytes, rfl, Nat.le_of_not_lt enough⟩
          rw [size_eq, Bytes.length_take, Bytes.length_drop]
          omega

/-! ## Bytes and pages -/

theorem pageOn_of_read (read_eq : disk'.read file.place = disk.read file.place) (number : UInt32) :
    file.pageOn disk' number = file.pageOn disk number := by
  unfold pageOn
  rw [read_eq]

theorem pageOn_congr (read_eq : disk.read file.place = .ok bytes) (read_eq' : disk'.read file.place = .ok bytes')
    (short_iff : bytes'.length < number.toNat * file.pageSize + file.pageSize ↔
      bytes.length < number.toNat * file.pageSize + file.pageSize)
    (same : ∀ i < file.pageSize,
      bytes'.toList[number.toNat * file.pageSize + i]? = bytes.toList[number.toNat * file.pageSize + i]?) :
    file.pageOn disk' number = file.pageOn disk number := by
  unfold pageOn pageBytes
  rw [read_eq, read_eq']
  simp only [Failure.ofCheck_ok, bind, Except.bind]
  cases range_eq : file.pageRange number with
  | error cause => rfl
  | ok range =>
    obtain ⟨first, last⟩ := range
    obtain ⟨rfl, rfl, -⟩ := pageRange_eq_ok range_eq
    by_cases short : bytes.length < number.toNat * file.pageSize + file.pageSize
    · simp only [if_pos short, if_pos (short_iff.mpr short)]
    · simp only [if_neg short, if_neg (mt short_iff.mp short)]
      refine Page.decode_congr _ _ ?_
      rw [Bytes.toList_take, Bytes.toList_drop, Bytes.toList_take, Bytes.toList_drop]
      refine List.ext_getElem? fun i => ?_
      rw [List.getElem?_take, List.getElem?_take, List.getElem?_drop, List.getElem?_drop]
      by_cases lt : i < file.pageSize
      · rw [if_pos lt, if_pos lt, same i lt]
      · rw [if_neg lt, if_neg lt]

theorem pageOn_write_self (lt : number.toNat * file.pageSize + file.pageSize < UInt64.size)
    (something : data.length ≠ 0) (length_eq : data.length = file.pageSize) :
    file.pageOn (disk.write file.place (bytes.overwrite (number.toNat * file.pageSize) data)) number =
      Page.decode (file.pageId number) file.schema data := by
  have long := Bytes.length_overwrite bytes (number.toNat * file.pageSize) something
  have enough : ¬(bytes.overwrite (number.toNat * file.pageSize) data).length <
      number.toNat * file.pageSize + file.pageSize := by
    rw [long, length_eq]
    omega
  unfold pageOn pageBytes
  rw [Disk.read_write_self, pageRange_of_lt lt]
  simp only [Failure.ofCheck_ok, bind, Except.bind, if_neg enough]
  refine Page.decode_congr _ _ ?_
  rw [Bytes.toList_take, Bytes.toList_drop, ← length_eq]
  exact Bytes.take_drop_overwrite bytes _ data

end TableFile

/-! ## All pages but one -/

theorem Disk.le_of_writeAt {disk disk' : Disk} {place : Place} {offset : Nat} {data : Bytes}
    (h : disk.writeAt place offset data = .ok disk') : offset + data.length ≤ maxFileBytes := by
  unfold writeAt at h
  split at h
  · cases h
  · split at h
    · cases h
    · next le => exact Nat.le_of_not_lt le

/-- The files have the same pages on both disks, but for the one with the id. -/
def Disk.PagesBut (files : List TableFile) (id : PageId) (before after : Disk) : Prop :=
  ∀ file ∈ files, ∀ number, file.pageId number ≠ id → file.pageOn after number = file.pageOn before number

theorem Disk.PagesBut.refl (files : List TableFile) (id : PageId) (disk : Disk) : PagesBut files id disk disk :=
  fun _ _ _ _ => rfl

theorem Disk.PagesBut.write {files : List TableFile} {file : TableFile} {disk : Disk} {number : UInt32}
    {bytes data : Bytes} (places : (files.map TableFile.place).Nodup) (mem : file ∈ files) (pos : 0 < file.pageSize)
    (read_eq : disk.read file.place = .ok bytes) (inside : number.toNat * file.pageSize ≤ bytes.length)
    (length_eq : data.length = file.pageSize) :
    PagesBut files (file.pageId number) disk
      (disk.write file.place (bytes.overwrite (number.toNat * file.pageSize) data)) := by
  intro other mem' number' id_ne
  by_cases same : other = file
  · subst same
    have number_ne : number'.toNat ≠ number.toNat := fun eq =>
      id_ne (congrArg other.pageId (UInt32.toNat_inj.mp eq))
    have something : data.length ≠ 0 := by omega
    have length_after := Bytes.length_overwrite bytes (number.toNat * other.pageSize) something
    rw [length_eq] at length_after
    rcases Nat.lt_or_gt_of_ne number_ne with below | above
    · have end_le := Mirrors.page_end_le other.pageSize below
      refine TableFile.pageOn_congr read_eq (Disk.read_write_self ..) (by omega) fun i lt => ?_
      exact Bytes.getElem?_overwrite_of_lt (by omega) (by omega)
    · have end_le := Mirrors.page_end_le other.pageSize above
      refine TableFile.pageOn_congr read_eq (Disk.read_write_self ..) (by omega) fun i lt => ?_
      exact Bytes.getElem?_overwrite_of_le (by omega)
  · have place_ne : other.place ≠ file.place := fun eq => same (List.inj_on_of_nodup_map places mem' mem eq)
    exact TableFile.pageOn_of_read (Disk.read_write_of_ne disk _ place_ne) number'

end RowStore
