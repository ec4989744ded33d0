/-!
# Long sequences of bytes

Sequences of bytes given by runs, so that a long stretch of zeros takes no room: a file may be far longer than what was
written to it. A sequence stands for the list of its bytes, `toList`, and its operations are those of that list.
-/

namespace RowStore

/-- A run: the bytes themselves, or a number of zeros. -/
inductive ByteRun where
  | data (bytes : List UInt8)
  | zeros (count : Nat)

namespace ByteRun

def toList : ByteRun → List UInt8
  | .data bytes => bytes
  | .zeros count => List.replicate count 0

def length : ByteRun → Nat
  | .data bytes => bytes.length
  | .zeros count => count

def take (n : Nat) : ByteRun → ByteRun
  | .data bytes => .data (bytes.take n)
  | .zeros count => .zeros (min n count)

def drop (n : Nat) : ByteRun → ByteRun
  | .data bytes => .data (bytes.drop n)
  | .zeros count => .zeros (count - n)

@[simp] theorem length_toList (run : ByteRun) : run.toList.length = run.length := by
  cases run <;> simp [toList, length]

@[simp] theorem toList_take (n : Nat) (run : ByteRun) : (run.take n).toList = run.toList.take n := by
  cases run <;> simp [toList, take]

@[simp] theorem toList_drop (n : Nat) (run : ByteRun) : (run.drop n).toList = run.toList.drop n := by
  cases run <;> simp [toList, drop]

end ByteRun

/-- A sequence of bytes: its runs, one after another. -/
structure Bytes where
  runs : List ByteRun

namespace Bytes

/-! ## Making sequences -/

def ofList (bytes : List UInt8) : Bytes := ⟨[.data bytes]⟩

def zeros (count : Nat) : Bytes := ⟨[.zeros count]⟩

def empty : Bytes := ⟨[]⟩

instance : Inhabited Bytes := ⟨empty⟩

instance : Append Bytes := ⟨fun left right => ⟨left.runs ++ right.runs⟩⟩

/-! ## Looking at a sequence -/

def toList (bytes : Bytes) : List UInt8 := bytes.runs.flatMap ByteRun.toList

def length (bytes : Bytes) : Nat := bytes.runs.foldr (fun run n => run.length + n) 0

/-! ## Parts of a sequence -/

def takeRuns : Nat → List ByteRun → List ByteRun
  | _, [] => []
  | n, run :: rest => if n ≤ run.length then [run.take n] else run :: takeRuns (n - run.length) rest

def dropRuns : Nat → List ByteRun → List ByteRun
  | _, [] => []
  | n, run :: rest => if n < run.length then run.drop n :: rest else dropRuns (n - run.length) rest

def take (n : Nat) (bytes : Bytes) : Bytes := ⟨takeRuns n bytes.runs⟩

def drop (n : Nat) (bytes : Bytes) : Bytes := ⟨dropRuns n bytes.runs⟩

/-- The bytes after `data` was written over them from `offset` on. Zeros fill the gap before it, if there is one. -/
def overwrite (bytes : Bytes) (offset : Nat) (data : Bytes) : Bytes :=
  if data.length = 0 then bytes
  else bytes.take offset ++ zeros (offset - bytes.length) ++ data ++ bytes.drop (offset + data.length)

/-! ## The same on lists -/

@[simp] theorem toList_ofList (bytes : List UInt8) : (ofList bytes).toList = bytes := by
  simp [ofList, toList, ByteRun.toList]

@[simp] theorem toList_zeros (count : Nat) : (zeros count).toList = List.replicate count 0 := by
  simp [zeros, toList, ByteRun.toList]

@[simp] theorem toList_append (left right : Bytes) : (left ++ right).toList = left.toList ++ right.toList :=
  List.flatMap_append

@[simp] theorem length_toList (bytes : Bytes) : bytes.toList.length = bytes.length := by
  obtain ⟨runs⟩ := bytes
  simp only [toList, length]
  induction runs with
  | nil => rfl
  | cons run rest ih => simp [ih]

@[simp] theorem toList_take (n : Nat) (bytes : Bytes) : (bytes.take n).toList = bytes.toList.take n := by
  obtain ⟨runs⟩ := bytes
  simp only [toList, take]
  induction runs generalizing n with
  | nil => simp [takeRuns]
  | cons run rest ih =>
    simp only [takeRuns]
    split
    · next h =>
      have : n - run.length = 0 := by omega
      simp [List.take_append, this]
    · next h =>
      have : run.toList.length ≤ n := by rw [ByteRun.length_toList]; omega
      simp [List.take_append, ih, List.take_of_length_le this]

@[simp] theorem toList_drop (n : Nat) (bytes : Bytes) : (bytes.drop n).toList = bytes.toList.drop n := by
  obtain ⟨runs⟩ := bytes
  simp only [toList, drop]
  induction runs generalizing n with
  | nil => simp [dropRuns]
  | cons run rest ih =>
    simp only [dropRuns]
    split
    · next h =>
      have : n - run.length = 0 := by omega
      simp [List.drop_append, this]
    · next h =>
      have : run.toList.length ≤ n := by rw [ByteRun.length_toList]; omega
      simp [List.drop_append, ih, List.drop_of_length_le this]

@[simp] theorem length_ofList (bytes : List UInt8) : (ofList bytes).length = bytes.length := by
  rw [← length_toList, toList_ofList]

@[simp] theorem length_zeros (count : Nat) : (zeros count).length = count := by
  rw [← length_toList, toList_zeros, List.length_replicate]

@[simp] theorem length_append (left right : Bytes) : (left ++ right).length = left.length + right.length := by
  rw [← length_toList, toList_append, List.length_append, length_toList, length_toList]

@[simp] theorem length_take (n : Nat) (bytes : Bytes) : (bytes.take n).length = min n bytes.length := by
  rw [← length_toList, toList_take, List.length_take, length_toList]

@[simp] theorem length_drop (n : Nat) (bytes : Bytes) : (bytes.drop n).length = bytes.length - n := by
  rw [← length_toList, toList_drop, List.length_drop, length_toList]

/-! ## Overwriting -/

theorem toList_overwrite (bytes : Bytes) (offset : Nat) {data : Bytes} (h : data.length ≠ 0) :
    (bytes.overwrite offset data).toList =
      bytes.toList.take offset ++ List.replicate (offset - bytes.length) 0 ++ data.toList ++
        bytes.toList.drop (offset + data.length) := by
  simp [overwrite, h]

theorem length_overwrite (bytes : Bytes) (offset : Nat) {data : Bytes} (h : data.length ≠ 0) :
    (bytes.overwrite offset data).length = max bytes.length (offset + data.length) := by
  simp only [overwrite, h, ite_false, length_append, length_take, length_zeros, length_drop]
  omega

end Bytes

end RowStore
