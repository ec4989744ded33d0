import Mathlib.Data.List.Nodup
import RowStore.Proofs.Codec.Parts
import RowStore.Proofs.Pool.Actions
import RowStore.Proofs.Pool.FilePages

/-!
# Pages in memory and on the disk

Between two calls every page of a table is in its file, in memory, or in both. `Mirrors` says which of the two has the
page as it is now: a page in memory is as it is now, and a page that is in memory without a mark, or not at all, is in
its file as it is now.
-/

namespace RowStore

/-! ## Tables -/

/-- Paths lead to the same places on both disks. -/
def Disk.SamePaths (disk other : Disk) : Prop := disk.home = other.home ∧ disk.directories = other.directories

theorem Disk.SamePaths.trans {disk middle other : Disk} (h : disk.SamePaths middle) (h' : middle.SamePaths other) :
    disk.SamePaths other := ⟨h.1.trans h'.1, h.2.trans h'.2⟩

theorem Disk.SamePaths.symm {disk other : Disk} (h : disk.SamePaths other) : other.SamePaths disk :=
  ⟨h.1.symm, h.2.symm⟩

/-- Table files that rows fit and that can be told apart, by number and on the disk where they were opened. -/
structure Tables where
  origin : Disk
  files : List TableFile
  opened : ∀ file ∈ files, file.Opened
  ids : (files.map TableFile.id).Nodup
  places : (files.map TableFile.place).Nodup

theorem TableFile.mem_of_among {files : List TableFile} {file : TableFile} {table : TableId}
    (h : among files table = .ok file) : file ∈ files ∧ file.id = table := by
  unfold among at h
  split at h
  · next found =>
    cases h
    exact ⟨List.mem_of_find?_eq_some found, by simpa using List.find?_some found⟩
  · cases h

theorem Tables.among_eq (tables : Tables) {file : TableFile} (mem : file ∈ tables.files) :
    TableFile.among tables.files file.id = .ok file := by
  unfold TableFile.among
  cases found : tables.files.find? fun other => other.id = file.id with
  | none => simpa using List.find?_eq_none.mp found file mem
  | some other =>
    have same : other.id = file.id := by simpa using List.find?_some found
    rw [List.inj_on_of_nodup_map tables.ids (List.mem_of_find?_eq_some found) mem same]

/-! ## Contents -/

namespace Contents

def setPage (contents : Contents) (id : PageId) (rows : PlainPage) : Contents :=
  contents.setTable id.table ((contents id.table).set id.number.toNat rows)

variable {contents : Contents} {id other : PageId} {rows rows' : PlainPage}

@[simp] theorem setTable_self (contents : Contents) (table : TableId) (pages : PlainTable) :
    contents.setTable table pages table = pages := if_pos rfl

theorem setTable_of_ne (contents : Contents) {table other : TableId} (pages : PlainTable) (ne : other ≠ table) :
    contents.setTable table pages other = contents other := if_neg ne

theorem page?_setPage_self (here : contents.page? id = some rows) (rows' : PlainPage) :
    (contents.setPage id rows').page? id = some rows' := by
  rw [page?, setPage, setTable_self, List.getElem?_set_self (List.getElem?_eq_some_iff.mp here).1]

theorem page?_setPage_of_ne (ne : other ≠ id) (rows : PlainPage) :
    (contents.setPage id rows).page? other = contents.page? other := by
  rw [page?, setPage, page?]
  by_cases same : other.table = id.table
  · have number_ne : id.number.toNat ≠ other.number.toNat := fun h => ne <| by
      cases other
      cases id
      cases same
      cases UInt32.toNat_inj.mp h
      rfl
    rw [same, setTable_self, List.getElem?_set_ne number_ne]
  · rw [setTable_of_ne _ _ same]

theorem length_setPage (contents : Contents) (id : PageId) (rows : PlainPage) (table : TableId) :
    (contents.setPage id rows table).length = (contents table).length := by
  unfold setPage setTable
  split
  · next same => rw [List.length_set, same]
  · rfl

/-- All pages but one are the same, and so are the numbers of pages. -/
structure SameBut (contents' : Contents) (id : PageId) (contents : Contents) : Prop where
  page : ∀ {other}, other ≠ id → contents'.page? other = contents.page? other
  length : ∀ table, (contents' table).length = (contents table).length

theorem sameBut_refl (contents : Contents) (id : PageId) : contents.SameBut id contents := ⟨fun _ => rfl, fun _ => rfl⟩

theorem sameBut_setPage (contents : Contents) (id : PageId) (rows : PlainPage) :
    (contents.setPage id rows).SameBut id contents :=
  ⟨fun ne => page?_setPage_of_ne ne rows, length_setPage contents id rows⟩

/-- The contents with one page as it is in others. -/
def revert (contents saved : Contents) (id : PageId) : Contents :=
  match saved.page? id with
  | some rows => contents.setPage id rows
  | none => contents

theorem revert_eq {saved : Contents} (here : saved.page? id = some rows) :
    contents.revert saved id = contents.setPage id rows := by
  rw [revert, here]

theorem setPage_eq_self (here : contents.page? id = some rows) : contents.setPage id rows = contents := by
  funext table
  unfold setPage setTable
  split
  · next same =>
    obtain ⟨lt, here⟩ := List.getElem?_eq_some_iff.mp here
    rw [same, ← here, List.set_getElem_self]
  · rfl

theorem revert_eq_self {saved : Contents} (same : saved.page? id = contents.page? id) :
    contents.revert saved id = contents := by
  unfold revert
  rw [same]
  split
  · next rows here => exact setPage_eq_self here
  · rfl

/-- Every page is one that its file may have. -/
def Sound (contents : Contents) (tables : Tables) : Prop :=
  ∀ file ∈ tables.files, ∀ number rows, (contents file.id)[number]? = some rows → file.Stores number rows

theorem Sound.setPage {tables : Tables} (h : contents.Sound tables) {file : TableFile} (mem : file ∈ tables.files)
    (table_eq : file.id = id.table) (stores : file.Stores id.number.toNat rows) :
    (contents.setPage id rows).Sound tables := by
  intro other mem' number rows' here
  by_cases same : other.id = id.table
  · cases List.inj_on_of_nodup_map tables.ids mem mem' (table_eq.trans same.symm)
    rw [Contents.setPage, same, setTable_self, List.getElem?_set] at here
    split at here
    · next number_eq =>
      split at here
      · cases here
        exact number_eq ▸ stores
      · cases here
    · exact h file mem number rows' (same ▸ here)
  · rw [Contents.setPage, setTable_of_ne _ _ same] at here
    exact h other mem' number rows' here

def addPage (contents : Contents) (table : TableId) (rows : PlainPage) : Contents :=
  contents.setTable table (contents table ++ [rows])

theorem page?_addPage (contents : Contents) (table : TableId) (rows : PlainPage) (id : PageId) :
    (contents.addPage table rows).page? id =
      if id.table = table ∧ id.number.toNat = (contents table).length then some rows else contents.page? id := by
  unfold page? addPage setTable
  by_cases same : id.table = table
  · rw [if_pos same, ← same]
    by_cases last : id.number.toNat = (contents id.table).length
    · rw [if_pos ⟨rfl, last⟩, last, List.getElem?_concat_length]
    · rw [if_neg fun both => last both.2]
      by_cases lt : id.number.toNat < (contents id.table).length
      · rw [List.getElem?_append_left lt]
      · rw [List.getElem?_eq_none (by rw [List.length_append, List.length_singleton]; omega),
          List.getElem?_eq_none (by omega)]
  · rw [if_neg same, if_neg fun both => same both.1]

theorem page?_addPage_of_some (here : contents.page? id = some rows) (table : TableId) (rows' : PlainPage) :
    (contents.addPage table rows').page? id = some rows := by
  rw [page?_addPage, if_neg, here]
  rintro ⟨rfl, last⟩
  have := (List.getElem?_eq_some_iff.mp here).1
  omega

theorem Sound.addPage {tables : Tables} (h : contents.Sound tables) {file : TableFile} (mem : file ∈ tables.files) :
    (contents.addPage file.id file.blankPage).Sound tables := by
  intro other mem' number rows' here
  by_cases same : other.id = file.id
  · cases List.inj_on_of_nodup_map tables.ids mem' mem same
    rw [Contents.addPage, setTable_self, List.getElem?_append] at here
    split at here
    · exact h file mem number rows' here
    · rw [List.getElem?_singleton, Option.ite_none_right_eq_some] at here
      cases here.2
      exact TableFile.stores_blankPage file number
  · rw [Contents.addPage, setTable_of_ne _ _ same] at here
    exact h other mem' number rows' here

end Contents

/-! ## Memory and disk -/

/-- The page of a handle has no mark of a change. -/
def Store.IsClean (store : Store) (frame : FrameId) : Prop :=
  ∃ page, store.frames[frame.index]? = some page ∧ page.dirtier = none

/-- The page of a handle is as it is now. If it has no mark, it is so in its file as well. -/
def Mirrors.Entry (files : List TableFile) (saved current : Contents) (frames : Array Page)
    (entry : PageId × FrameId) : Prop :=
  ∃ file ∈ files, file.id = entry.1.table ∧ ∃ rows mark, current.page? entry.1 = some rows ∧
    frames[entry.2.index]? = some ((file.page entry.1.number.toNat rows).markDirty mark) ∧
    (mark = none → saved.page? entry.1 = some rows)

/-- The files have the pages `saved`. The pages are `current` now, those of `held` in memory and the others in their
files. -/
structure Mirrors (tables : Tables) (saved current : Contents) (held : List (PageId × FrameId)) (store : Store) :
    Prop where
  catalog_eq : ∀ table, store.catalog.file table = TableFile.among tables.files table
  paths : store.disk.SamePaths tables.origin
  disk : ∀ file ∈ tables.files, ∃ bytes, store.disk.read file.place = .ok bytes ∧
    bytes.toList = (saved file.id).flatMap file.image
  counts : ∀ table, (saved table).length = (current table).length
  numbered : ∀ file ∈ tables.files, (saved file.id).length ≤ UInt32.size
  addressed : ∀ file ∈ tables.files, (saved file.id).length * file.pageSize ≤ Disk.maxFileBytes
  saved_sound : saved.Sound tables
  current_sound : current.Sound tables
  ids : (held.map Prod.fst).Nodup
  frames : (held.map Prod.snd).Nodup
  entries : ∀ entry ∈ held, Mirrors.Entry tables.files saved current store.frames entry
  others : ∀ id, id ∉ held.map Prod.fst → saved.page? id = current.page? id

namespace Mirrors

variable {tables : Tables} {saved current : Contents} {held held' : List (PageId × FrameId)} {store : Store}

theorem congr (h : Mirrors tables saved current held store) (store' : Store) (disk_eq : store'.disk = store.disk)
    (catalog_eq : store'.catalog = store.catalog) (frames_eq : store'.frames = store.frames) :
    Mirrors tables saved current held store' :=
  { h with
    catalog_eq := catalog_eq ▸ h.catalog_eq
    paths := disk_eq ▸ h.paths
    disk := disk_eq ▸ h.disk
    entries := frames_eq ▸ h.entries }

theorem perm (h : Mirrors tables saved current held store) (perm : held.Perm held') :
    Mirrors tables saved current held' store :=
  { h with
    ids := (perm.map Prod.fst).nodup_iff.mp h.ids
    frames := (perm.map Prod.snd).nodup_iff.mp h.frames
    entries := fun entry mem => h.entries entry (perm.mem_iff.mpr mem)
    others := fun id absent => h.others id fun mem => absent ((perm.map Prod.fst).mem_iff.mp mem) }

end Mirrors

end RowStore
