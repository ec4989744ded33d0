import RowStore.Page.Layout
import RowStore.Row

/-!
# Pages

A page holds rows of one schema in numbered slots. Each slot has a flag that says whether it is used. A page also knows
the transaction that changed it since it was last written to its file.
-/

namespace RowStore

/-- A slot: its flag, and the row stored in it. -/
structure Slot where
  used : Bool
  row : Option Row
  deriving DecidableEq

def Slot.free : Slot := ⟨false, none⟩

def Slot.live? (slot : Slot) : Option Row := if slot.used then slot.row else none

/-- A page in memory. `spare` are the flags past the last slot, up to the end of their byte. -/
structure Page where
  id : PageId
  schema : Schema
  size : Nat
  slots : List Slot
  spare : List Bool
  dirtier : Option TxnId
  deriving DecidableEq

namespace Page

/-! ## Looking at a page -/

def slotCount (page : Page) : Nat := page.slots.length

def headerSize (page : Page) : Nat := Layout.headerBytes page.slotCount

/-- Whether a slot is used. A slot that the page does not have is not. -/
def isUsed (page : Page) (index : Nat) : Bool :=
  match page.slots[index]? with
  | some slot => slot.used
  | none => false

def freeCount (page : Page) : Nat := page.slots.countP fun slot => !slot.used

/-- The rows of the used slots, in slot order. -/
def rows (page : Page) : List Row := page.slots.filterMap Slot.live?

/-- Whether the page has changes that are not in its file. -/
def isDirty (page : Page) : Bool := page.dirtier.isSome

def rowId (page : Page) (index : Nat) : RowId := ⟨page.id, UInt16.ofNat index⟩

/-! ## Changing a page -/

/-- Sets or clears the flag of a slot. The row in it stays. -/
def mark (page : Page) (index : Nat) (used : Bool) : Page :=
  { page with slots := page.slots.modify index fun slot => { slot with used } }

/-- Records who changed the page, or that it is in its file as it is. -/
def markDirty (page : Page) (txn : Option TxnId) : Page := { page with dirtier := txn }

def firstFree? (page : Page) : Option Nat := page.slots.findIdx? fun slot => !slot.used

/-- Stores a row of the page's schema in the first slot that is not used, and tells where. -/
def insert (page : Page) (row : Row) : Except StoreError (Page × RowId) :=
  if row.schema ≠ page.schema then .error (Schema.mismatch page.schema row.schema)
  else match page.firstFree? with
    | none => .error (.pageFull page.id)
    | some index =>
      let id := page.rowId index
      .ok ({ page with slots := page.slots.set index ⟨true, some (row.withId (some id))⟩ }, id)

/-- Frees the slot in which a row lives. -/
def delete (page : Page) (row : Row) : Except StoreError Page :=
  match row.id with
  | none => .error .rowNotStored
  | some id =>
    let index := id.slot.toNat
    if id.page ≠ page.id ∨ page.slotCount ≤ index then .error (.rowNotOnPage page.id)
    else if !page.isUsed index then .error (.slotEmpty page.id id.slot)
    else .ok { page with slots := page.slots.set index Slot.free }

/-! ## What stays the same -/

@[simp] theorem slots_markDirty (page : Page) (txn : Option TxnId) :
    (page.markDirty txn).slots = page.slots := rfl

theorem isUsed_lt {page : Page} {index : Nat} (h : page.isUsed index = true) :
    index < page.slotCount := by
  unfold isUsed at h
  split at h
  · next slot hs => exact (List.getElem?_eq_some_iff.mp hs).1
  · cases h

theorem firstFree?_eq_none_iff (page : Page) : page.firstFree? = none ↔ page.freeCount = 0 := by
  simp [firstFree?, freeCount, List.countP_eq_zero]

end Page

end RowStore
