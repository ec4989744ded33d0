import RowStore.Bytes
import RowStore.Page

/-!
# The bytes of a page

Reading a page takes any bytes whose used slots hold rows, and keeps the flags past the last slot as they are. Writing a
page takes the bytes of each stored row as they come; a page whose rows need more room than it has cannot be written.
-/

namespace RowStore.Page

/-! ## Reading -/

/-- Reads the slot at `index` from its bytes. -/
def readSlot (id : PageId) (schema : Schema) (index : Nat) (used : Bool) (bytes : List UInt8) :
    Except StoreError Slot :=
  if used then
    match Row.decode? schema bytes with
    | some row => .ok ⟨true, some (row.withId (some ⟨id, UInt16.ofNat index⟩))⟩
    | none => .error (.pageCorrupt id s!"slot {index} does not decode")
  else .ok Slot.free

/-- Reads a slot for each flag, starting with the slot at `index`, after the ones already read (last first). -/
def readSlots (id : PageId) (schema : Schema) :
    Nat → List Bool → List UInt8 → List Slot → Except StoreError (List Slot)
  | _, [], _, done => .ok done.reverse
  | index, used :: flags, bytes, done =>
    match readSlot id schema index used (bytes.take schema.width) with
    | .error e => .error e
    | .ok slot => readSlots id schema (index + 1) flags (bytes.drop schema.width) (slot :: done)

/-- Reads a page of `size` bytes with the given number of slots from its flags and slots. -/
def readContent (id : PageId) (schema : Schema) (size slots : Nat) (content : List UInt8) :
    Except StoreError Page :=
  let header := Layout.headerBytes slots
  let flags := Layout.unpackFlags (content.take header)
  match readSlots id schema 0 (flags.take slots) (content.drop header) [] with
  | .error e => .error e
  | .ok read => .ok ⟨id, schema, size, read, flags.drop slots, none⟩

/-- Reads a page from all of `bytes`. What comes after the last slot is not looked at. -/
def decode (id : PageId) (schema : Schema) (bytes : Bytes) : Except Failure Page :=
  let size := bytes.length
  match Layout.slotsFor size schema with
  | .error cause => .error (.aborted cause)
  | .ok slots =>
    let room := Layout.headerBytes slots + slots * schema.width
    if size < room then
      .error (.refused (.pageCorrupt id s!"{size} bytes cannot hold {slots} slots"))
    else Failure.ofCheck (readContent id schema size slots (bytes.take room).toList)

/-- Only the bytes matter, not the runs in which they are kept. -/
theorem decode_congr (id : PageId) (schema : Schema) {left right : Bytes} (h : left.toList = right.toList) :
    decode id schema left = decode id schema right := by
  have : left.length = right.length := by rw [← Bytes.length_toList, h, Bytes.length_toList]
  simp only [decode, this, Bytes.toList_take, h]

/-- The number of bytes that memory cannot address. -/
def sizeLimit : Nat := 0x8000000000000000

def blank (size : Nat) : Except Abort Bytes :=
  if size < sizeLimit then .ok (.zeros size) else .error .outOfMemory

theorem blank_eq_ok {size : Nat} (h : size < sizeLimit) : blank size = .ok (.zeros size) := by
  rw [blank, if_pos h]

/-! ## Writing -/

/-- The bytes of a slot: those of its row, or zeros where there is none. -/
def slotBytes (width : Nat) (slot : Slot) : List UInt8 :=
  match slot.row with
  | some row => row.encode
  | none => List.replicate width 0

/-- The flags and slots of a page, without the zeros that fill it. -/
def content (page : Page) : List UInt8 :=
  Layout.packFlags page.headerSize (page.slots.map Slot.used ++ page.spare) ++
    page.slots.flatMap (slotBytes page.schema.width)

def encode (page : Page) : Except Abort Bytes :=
  let content := page.content
  if content.length ≤ page.size then .ok (.ofList content ++ .zeros (page.size - content.length))
  else .error .pageOverrun

def reload (page : Page) : Except Failure Page :=
  match page.encode with
  | .error cause => .error (.aborted cause)
  | .ok bytes => decode page.id page.schema bytes

theorem length_encode {page : Page} {bytes : Bytes} (h : page.encode = .ok bytes) :
    bytes.length = page.size := by
  simp only [encode] at h
  split at h
  · cases h
    simp only [Bytes.length_append, Bytes.length_ofList, Bytes.length_zeros]
    omega
  · cases h

theorem toList_encode {page : Page} {bytes : Bytes} (h : page.encode = .ok bytes) :
    bytes.toList = page.content ++ List.replicate (page.size - page.content.length) 0 := by
  simp only [encode] at h
  split at h
  · cases h
    simp
  · cases h

theorem length_readSlots {id : PageId} {schema : Schema} {index : Nat} {flags : List Bool}
    {bytes : List UInt8} {done slots : List Slot}
    (h : readSlots id schema index flags bytes done = .ok slots) :
    slots.length = done.length + flags.length := by
  induction flags generalizing index bytes done with
  | nil =>
    cases h
    simp
  | cons used flags ih =>
    simp only [readSlots] at h
    split at h
    · cases h
    · have := ih h
      simp only [List.length_cons] at this ⊢
      omega

end RowStore.Page
