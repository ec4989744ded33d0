import RowStore.Assoc
import RowStore.Bytes
import RowStore.Failure
import RowStore.Text.Utf8

/-!
# The disk

Files of bytes below a root directory. A file is known by its place: the names that lead to it from the root, without
detours. A path leads from the home directory to a place, or from the root if it begins with a slash. Writing past the
end of a file fills the gap with zeros.
-/

namespace RowStore

/-- The names that lead from the root to a file or directory. -/
abbrev Place := List String

def Place.text (place : Place) : String := "/" ++ "/".intercalate place

/-- The home directory, the directories that do not lead to it, and the bytes of every file. -/
structure Disk where
  home : Place
  directories : List Place
  files : Assoc Place Bytes

namespace Disk

/-- A disk without files. The directories are given from the home directory on. -/
def ofDirectories (home : Place) (directories : List Place) : Disk :=
  ⟨home, directories.map (home ++ ·), .empty⟩

instance : Inhabited Disk := ⟨ofDirectories [] []⟩

/-! ## Paths -/

def isDirectory (disk : Disk) (place : Place) : Bool :=
  place.isPrefixOf disk.home || disk.directories.contains place

/-- The number of bytes that no path exceeds, with the home directory before it where it begins there. -/
def maxPathBytes : Nat := 4095

/-- Whether a name can be given to a file: it has at most 255 bytes and no zero among them. -/
def isFileName (name : String) : Bool :=
  decide (Utf8.byteCount name ≤ 255) && !name.toList.contains '\x00'

/-- The parts of a path between its slashes. -/
def splitPath : List Char → List (List Char)
  | [] => [[]]
  | c :: rest =>
    if c = '/' then [] :: splitPath rest
    else match splitPath rest with
      | part :: parts => (c :: part) :: parts
      | [] => [[c]]

/-- Follows the parts of a path from a directory. Empty parts and `.` stay, `..` goes back, and every part but the last
must lead to a directory. The last may lead to a file, there already or not. -/
def follow (disk : Disk) (place : Place) : List String → Option Place
  | [] => some place
  | part :: rest =>
    if part = "" ∨ part = "." then disk.follow place rest
    else if part = ".." then disk.follow place.dropLast rest
    else if disk.isDirectory (place ++ [part]) then disk.follow (place ++ [part]) rest
    else if rest = [] ∧ isFileName part then some (place ++ [part])
    else none

/-- The place where a path begins, and the path as it reads from the root. -/
def startOf (disk : Disk) (path : String) : Place × String :=
  match path.toList with
  | '/' :: _ => ([], path)
  | _ => (disk.home, disk.home.text ++ "/" ++ path)

/-- The place of the file that a path leads to. -/
def locate (disk : Disk) (path : String) : Except StoreError Place :=
  let (start, whole) := disk.startOf path
  if maxPathBytes < Utf8.byteCount whole then .error .fileSystem
  else match disk.follow start ((splitPath path.toList).map String.ofList) with
    | some place => if disk.isDirectory place then .error .fileSystem else .ok place
    | none => .error .fileSystem

/-- The path to a place: from the home directory on where the place is below it, and from the root otherwise. -/
def pathTo (disk : Disk) (place : Place) : String :=
  if disk.home.isPrefixOf place then "/".intercalate (place.drop disk.home.length) else place.text

/-! ## Files -/

def read (disk : Disk) (place : Place) : Except StoreError Bytes :=
  match disk.files.get? place with
  | some bytes => .ok bytes
  | none => .error .fileSystem

def write (disk : Disk) (place : Place) (bytes : Bytes) : Disk :=
  { disk with files := disk.files.insert place bytes }

/-- Makes an empty file, unless the file is there. -/
def create (disk : Disk) (place : Place) : Disk :=
  if disk.files.contains place then disk else disk.write place .empty

/-- The number of bytes that no file exceeds. -/
def maxFileBytes : Nat := 0x7FFFFFFFFFFFFFFF

/-- Writes `data` over a file from `offset` on. -/
def writeAt (disk : Disk) (place : Place) (offset : Nat) (data : Bytes) : Except StoreError Disk :=
  match disk.read place with
  | .error e => .error e
  | .ok bytes =>
    if maxFileBytes < offset + data.length then .error .fileSystem
    else .ok (disk.write place (bytes.overwrite offset data))

theorem read_write_self (disk : Disk) (place : Place) (bytes : Bytes) :
    (disk.write place bytes).read place = .ok bytes := by
  simp [read, write]

theorem read_write_of_ne (disk : Disk) {place other : Place} (bytes : Bytes)
    (h : other ≠ place) : (disk.write place bytes).read other = disk.read other := by
  simp [read, write, Assoc.get?_insert, h]

theorem read_writeAt_self {disk disk' : Disk} {place : Place} {offset : Nat} {bytes data : Bytes}
    (before : disk.read place = .ok bytes) (h : disk.writeAt place offset data = .ok disk') :
    disk'.read place = .ok (bytes.overwrite offset data) := by
  simp only [writeAt, before] at h
  split at h
  · cases h
  · cases h
    exact read_write_self ..

theorem read_writeAt_of_ne {disk disk' : Disk} {place other : Place} {offset : Nat} {data : Bytes}
    (h : disk.writeAt place offset data = .ok disk') (ne : other ≠ place) :
    disk'.read other = disk.read other := by
  unfold writeAt at h
  split at h
  · cases h
  · split at h
    · cases h
    · cases h
      exact read_write_of_ne disk _ ne

end Disk

end RowStore
