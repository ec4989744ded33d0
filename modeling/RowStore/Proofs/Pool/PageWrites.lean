import RowStore.Proofs.Codec.Edits
import RowStore.Proofs.Pool.Evolution
import RowStore.Proofs.Pool.SetUp

/-!
# What writing a page changes

A page begins in its file where pages of the size of the file have it, and takes as many bytes as the page has. Nothing
compares the two sizes. Where they are the same the other pages keep their bytes, and where they are not the page has
not its own place, or has more than that. Pages that were read from a file have its size, whatever became of their rows.
-/

namespace RowStore

/-! ## Overwritten bytes -/

namespace Bytes

variable {bytes data : Bytes} {offset i : Nat}

theorem length_overwrite_front (bytes : Bytes) (offset : Nat) :
    (bytes.toList.take offset ++ List.replicate (offset - bytes.length) 0).length = offset := by
  rw [List.length_append, List.length_take, List.length_replicate, length_toList]
  omega

theorem getElem?_overwrite_of_lt (lt : i < offset) (here : i < bytes.length) :
    (bytes.overwrite offset data).toList[i]? = bytes.toList[i]? := by
  by_cases nothing : data.length = 0
  · rw [overwrite, if_pos nothing]
  · have in_front : i < (bytes.toList.take offset).length := by
      rw [List.length_take, length_toList]
      omega
    rw [toList_overwrite bytes offset nothing, List.append_assoc,
      List.getElem?_append_left (by rw [length_overwrite_front]; exact lt), List.getElem?_append_left in_front,
      List.getElem?_take_of_lt lt]

theorem getElem?_overwrite_of_gap (something : data.length ≠ 0) (lt : i < offset) (past : bytes.length ≤ i) :
    (bytes.overwrite offset data).toList[i]? = some 0 := by
  have past_front : (bytes.toList.take offset).length ≤ i := by
    rw [List.length_take, length_toList]
    omega
  rw [toList_overwrite bytes offset something, List.append_assoc,
    List.getElem?_append_left (by rw [length_overwrite_front]; exact lt), List.getElem?_append_right past_front,
    List.getElem?_replicate, if_pos]
  rw [List.length_take, length_toList]
  omega

theorem getElem?_overwrite_of_le (le : offset + data.length ≤ i) :
    (bytes.overwrite offset data).toList[i]? = bytes.toList[i]? := by
  by_cases nothing : data.length = 0
  · rw [overwrite, if_pos nothing]
  · rw [toList_overwrite bytes offset nothing, List.getElem?_append_right, List.getElem?_drop, List.length_append,
      length_overwrite_front, length_toList, Nat.add_sub_cancel' le]
    rw [List.length_append, length_overwrite_front, length_toList]
    exact le

theorem take_drop_overwrite (bytes : Bytes) (offset : Nat) (data : Bytes) :
    ((bytes.overwrite offset data).toList.drop offset).take data.length = data.toList := by
  by_cases nothing : data.length = 0
  · rw [nothing, List.take_zero, List.length_eq_zero_iff.mp ((length_toList data).trans nothing)]
  · rw [toList_overwrite bytes offset nothing, List.append_assoc, List.drop_left' (length_overwrite_front bytes offset),
      ← length_toList data, List.take_left' rfl]

end Bytes

/-! ## One page of a file -/

namespace TableFile

/-- The file has whole pages after the write, as before. Every page but the one with the number has the bytes that it
had, there are zeros between the last page of before and the one written, and that one has just the bytes of `data`. -/
structure WritesOnly (file : TableFile) (number : Nat) (data before after : Bytes) : Prop where
  whole : file.pageSize ∣ after.length
  others : ∀ i < before.length, i / file.pageSize ≠ number → after.toList[i]? = before.toList[i]?
  gap : ∀ i < number * file.pageSize, before.length ≤ i → after.toList[i]? = some 0
  last_le : (number + 1) * file.pageSize ≤ after.length
  own : (after.toList.drop (number * file.pageSize)).take file.pageSize = data.toList

variable {file : TableFile} {number : Nat} {data before after : Bytes}

theorem WritesOnly.length_data (h : file.WritesOnly number data before after) : data.length = file.pageSize := by
  have last_le := h.last_le
  rw [← Bytes.length_toList, ← h.own, List.length_take, List.length_drop, Bytes.length_toList]
  rw [Nat.succ_mul] at last_le
  omega

theorem writesOnly_overwrite (pos : 0 < file.pageSize) (whole : file.pageSize ∣ before.length)
    (length_eq : data.length = file.pageSize) (number : Nat) :
    file.WritesOnly number data before (before.overwrite (number * file.pageSize) data) := by
  have something : data.length ≠ 0 := by omega
  have length_after := Bytes.length_overwrite before (number * file.pageSize) something
  rw [length_eq, ← Nat.succ_mul] at length_after
  refine ⟨?whole, ?others, ?gap, ?last_le, ?own⟩
  case whole =>
    rw [length_after]
    rcases Nat.le_total before.length (number.succ * file.pageSize) with le | le
    · rw [Nat.max_eq_right le]
      exact Nat.dvd_mul_left _ _
    · rw [Nat.max_eq_left le]
      exact whole
  case others =>
    intro i lt other
    rcases Nat.lt_or_gt_of_ne other with below | above
    · exact Bytes.getElem?_overwrite_of_lt ((Nat.div_lt_iff_lt_mul pos).mp below) lt
    · have le := (Nat.le_div_iff_mul_le pos).mp (Nat.succ_le_of_lt above)
      refine Bytes.getElem?_overwrite_of_le ?_
      rw [length_eq, ← Nat.succ_mul]
      exact le
  case gap =>
    intro i lt past
    exact Bytes.getElem?_overwrite_of_gap something lt past
  case last_le =>
    rw [length_after]
    exact Nat.le_max_right _ _
  case own =>
    rw [← length_eq]
    exact Bytes.take_drop_overwrite before _ data

end TableFile

/-! ## Writing a page -/

theorem PageId.eq_of_offset {id : PageId} {size offset : Nat} (h : id.offset size = .ok offset) :
    offset = id.number.toNat * size := by
  unfold PageId.offset at h
  dsimp only at h
  split at h
  · cases h
    rfl
  · cases h

theorem Disk.eq_of_writeAt {disk disk' : Disk} {place : Place} {offset : Nat} {bytes data : Bytes}
    (read_eq : disk.read place = .ok bytes) (h : disk.writeAt place offset data = .ok disk') :
    disk' = disk.write place (bytes.overwrite offset data) := by
  unfold writeAt at h
  rw [read_eq] at h
  dsimp only at h
  split at h
  · cases h
  · cases h
    rfl

namespace TableFile

variable {file : TableFile} {page : Page} {before : Bytes} {store after : Store}

theorem of_writePage (read_eq : store.disk.read file.place = .ok before)
    (h : file.writePage page store = .ok () after) :
    ∃ data meters, page.encode = .ok data ∧ after = { store with
      disk := store.disk.write file.place (before.overwrite (page.id.number.toNat * file.pageSize) data), meters } := by
  rcases file.writePage_cases page store with
    ⟨_, failed⟩ | ⟨data, offset, disk, meters, encoded, offset_eq, write_eq, run⟩
  · cases failed.symm.trans h
  · cases run.symm.trans h
    refine ⟨data, meters, encoded, ?_⟩
    rw [Disk.eq_of_writeAt read_eq write_eq, PageId.eq_of_offset offset_eq]
    rfl

/-- A page that a file of whole pages takes changes no more than its own bytes of the file, and nothing else but the
count of pages written. It is written as a page of the file, and the other pages stay, just when it has the size of the
file's pages. Every page has it that was read from the file, whatever was done to its rows. -/
theorem writesOnly_iff (opened : file.Opened) (read_eq : store.disk.read file.place = .ok before)
    (whole : file.pageSize ∣ before.length) (written : file.writePage page store = .ok () after) :
    ∃ data bytes meters, page.encode = .ok data ∧
      after = { store with disk := store.disk.write file.place bytes, meters } ∧
      (∀ i < before.length, i < page.id.number.toNat * file.pageSize ∨
        page.id.number.toNat * file.pageSize + page.size ≤ i → bytes.toList[i]? = before.toList[i]?) ∧
      (file.WritesOnly page.id.number.toNat data before bytes ↔ page.size = file.pageSize) ∧
      ∀ number earlier later start edits txn, file.readPage number earlier = .ok start later →
        page = (start.edited edits).markDirty txn → file.WritesOnly page.id.number.toNat data before bytes := by
  obtain ⟨data, meters, encoded, after_eq⟩ := of_writePage read_eq written
  have length_data := Page.length_encode encoded
  have only_iff : file.WritesOnly page.id.number.toNat data before
      (before.overwrite (page.id.number.toNat * file.pageSize) data) ↔ page.size = file.pageSize := by
    constructor
    · intro only
      rw [← length_data, only.length_data]
    · intro size_eq
      exact writesOnly_overwrite opened.sizes.1 whole (length_data.trans size_eq) _
  refine ⟨data, _, meters, encoded, after_eq, ?_, only_iff, ?_⟩
  · rintro i lt (below | above)
    · exact Bytes.getElem?_overwrite_of_lt below lt
    · rw [← length_data] at above
      exact Bytes.getElem?_overwrite_of_le above
  · intro number earlier later start edits txn read page_eq
    refine only_iff.mpr ?_
    rw [page_eq]
    exact (Page.size_edited start edits).trans (page_of_readPage read).1.size_eq

/-! A page of twice the size of the file's pages is written over the row of the page after it. -/

def twoPages : Bytes := .ofList (List.replicate 9 0 ++ [1, 0, 0, 0, 7, 0, 0, 0, 0])

def widePage : Page := .fresh (smallFile.pageId 0) smallFile.schema 18

def twoPageStore : Store := .ofDisk (Disk.write default smallFile.place twoPages)

set_option maxRecDepth 4000 in
theorem writesOnly_iff_of_wide_page :
    ∃ after data bytes, smallFile.Opened ∧ twoPageStore.disk.read smallFile.place = .ok twoPages ∧
      smallFile.pageSize ∣ twoPages.length ∧ smallFile.writePage widePage twoPageStore = .ok () after ∧
      widePage.encode = .ok data ∧ after.disk.read smallFile.place = .ok bytes ∧
      ¬smallFile.WritesOnly 0 data twoPages bytes := by
  have opened : smallFile.Opened := rfl
  have read_eq : twoPageStore.disk.read smallFile.place = .ok twoPages := Disk.read_write_self ..
  have whole : smallFile.pageSize ∣ twoPages.length := by decide
  have written : ∃ after, smallFile.writePage widePage twoPageStore = .ok () after := ⟨_, rfl⟩
  obtain ⟨after, written⟩ := written
  obtain ⟨data, bytes, meters, encoded, after_eq, -, only_iff, -⟩ := writesOnly_iff opened read_eq whole written
  have read_after : after.disk.read smallFile.place = .ok bytes := by
    rw [after_eq]
    exact Disk.read_write_self ..
  refine ⟨after, data, bytes, opened, read_eq, whole, written, encoded, read_after, fun only => ?_⟩
  exact absurd (only_iff.mp only) (by decide)

end TableFile

end RowStore
