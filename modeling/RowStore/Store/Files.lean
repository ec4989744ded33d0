import RowStore.Store

/-!
# Reading and writing table files

The pages of a table file on the disk, without a pool between. Every page read or written is counted.
-/

namespace RowStore

namespace Meter

def countRead (meter : Meter) : Meter := { meter with reads := meter.reads + 1 }

def countWrite (meter : Meter) : Meter := { meter with writes := meter.writes + 1 }

end Meter

def Store.setFileBytes (path : String) (bytes : Bytes) : Action Unit := do
  let store ← get
  let place ← Action.check (store.disk.locate path)
  set { store with disk := store.disk.write place bytes }

def Store.fileBytes (path : String) : Action Bytes := do
  let store ← get
  let place ← Action.check (store.disk.locate path)
  Action.check (store.disk.read place)

namespace TableFile

/-- Opens the table file at a path. A file that is not there is made, without pages. -/
def openAt (path : String) (schema : Schema) (pageSize : Nat) : Action TableFile := do
  Action.attempt (checkSizes schema pageSize)
  let store ← get
  let place ← Action.check (store.disk.locate path)
  set { store with disk := store.disk.create place, meters := store.meters.push ⟨0, 0⟩ }
  return ⟨idOfPath place.text, place, schema, pageSize, store.meters.size⟩

def bytes (file : TableFile) : Action Bytes := do
  Action.check ((← get).disk.read file.place)

/-- How often pages of this opening were read and written. -/
def meter (file : TableFile) : Action Meter := do
  return ((← get).meters[file.serial]?).getD ⟨0, 0⟩

def count (file : TableFile) (change : Meter → Meter) : Action Unit :=
  modify fun store => { store with meters := store.meters.modify file.serial change }

def pageCount (file : TableFile) : Action UInt32 := do
  return file.countPages (← file.bytes)

/-- Reads a page from the disk. The page counts as read even where its bytes are no page. -/
def readPage (file : TableFile) (number : UInt32) : Action Page := do
  let page ← Action.attempt (file.pageBytes number (← file.bytes))
  file.count Meter.countRead
  Action.attempt (Page.decode (file.pageId number) file.schema page)

/-- Writes the bytes of a page where the page begins in the file. -/
def writeBytes (file : TableFile) (number : UInt32) (data : Bytes) : Action Unit := do
  let offset ← Action.guard ((file.pageId number).offset file.pageSize)
  let store ← get
  let disk ← Action.check (store.disk.writeAt file.place offset data)
  set { store with disk }
  file.count Meter.countWrite

def writePage (file : TableFile) (page : Page) : Action Unit := do
  if page.id.table ≠ file.id then Action.fail (.refused (.rowNotOnPage page.id))
  file.writeBytes page.id.number (← Action.guard page.encode)

/-- Adds a page without rows at the end of the file, and tells its number. -/
def appendPage (file : TableFile) : Action UInt32 := do
  let number ← file.pageCount
  file.writeBytes number (← Action.guard (Page.blank file.pageSize))
  return number

end TableFile

end RowStore
