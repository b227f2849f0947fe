import SnapshotStore.Data.Word
import SnapshotStore.Error

namespace SnapshotStore

/-- A foreign address space: `memory` is mapped from `base` on, every other address faults. -/
structure Arena where
  base : Address
  memory : Array UInt8
  size_lt : memory.size < wordSize
  deriving DecidableEq

namespace Arena

abbrev size (a : Arena) : Nat := a.memory.size

def zeroed (base : Address) (size : UInt64) : Arena where
  base := base
  memory := Array.replicate size.toNat 0
  size_lt := by simpa [wordSize] using size.toNat_lt

def allocate (base : Address) (size : UInt64) : Except Overflow Arena :=
  (Word.capacity size.toNat).map fun _ => zeroed base size

/-- The position in memory of the first of `len` mapped bytes at `addr`. -/
def window (a : Arena) (addr : Address) (len : Nat) : Except CopyFault Nat :=
  if addr < a.base then
    .error ⟨addr, len⟩
  else
    let start := (addr - a.base).toNat
    match Word.add start len with
    | .ok stop => if stop ≤ a.size then .ok start else .error ⟨addr, len⟩
    | .error _ => .error ⟨addr, len⟩

def overwrite (memory : Array UInt8) (pos : Nat) : Bytes → Array UInt8
  | [] => memory
  | b :: bs => overwrite (memory.setIfInBounds pos b) (pos + 1) bs

@[simp] theorem size_overwrite (memory : Array UInt8) (pos : Nat) (bs : Bytes) :
    (overwrite memory pos bs).size = memory.size := by
  induction bs generalizing memory pos with
  | nil => rfl
  | cons b bs ih => simp [overwrite, ih]

def load (a : Arena) (addr : Address) (len : Nat) : Except CopyFault Bytes :=
  match a.window addr len with
  | .ok start => .ok (a.memory.extract start (start + len)).toList
  | .error fault => .error fault

/-- A store that faults leaves the memory as it was. -/
def store (a : Arena) (addr : Address) (bs : Bytes) : Except CopyFault Unit × Arena :=
  match a.window addr bs.length with
  | .ok start =>
    (.ok (), { a with
      memory := overwrite a.memory start bs
      size_lt := by simpa using a.size_lt })
  | .error fault => (.error fault, a)

def copyOut (a : Arena) (addr : Address) (bs : Bytes) : Except CopyFault Unit × Arena :=
  a.store addr bs

/-- Fill the whole of `buffer`, or leave it as it was. -/
def copyIn (a : Arena) (addr : Address) (buffer : Bytes) : Except CopyFault Unit × Bytes :=
  match a.load addr buffer.length with
  | .ok bs => (.ok (), bs)
  | .error fault => (.error fault, buffer)

def loadKeys (a : Arena) (addr : Address) (count : Nat) : Except CopyFault (List Key) :=
  match Word.mul count keySize with
  | .ok len => (a.load addr len).map (Bytes.words count)
  | .error _ => .error ⟨addr, maxWord⟩

end Arena

end SnapshotStore
