import SnapshotStore.Text.Outline

namespace SnapshotStore

/-- Identifies an entry within its group. -/
abbrev Key := UInt64

/-- A place in a foreign address space. -/
abbrev Address := UInt64

def keySize : Nat := 8

structure GroupId where
  number : UInt32
  deriving DecidableEq, Repr

namespace GroupId

def slot (g : GroupId) : Nat := g.number.toNat

def ofSlot (n : Nat) : GroupId := ⟨UInt32.ofNat n⟩

def text (g : GroupId) : String := toString g.slot

def compare (g h : GroupId) : Ordering := Ord.compare g.slot h.slot

def outline (g : GroupId) : Outline := .tuple "GroupId" [.nat g.slot]

theorem slot_inj {g h : GroupId} (e : g.slot = h.slot) : g = h := by
  cases g; cases h
  exact congrArg GroupId.mk (UInt32.toNat_inj.1 e)

theorem slot_ofSlot {n : Nat} (h : n < 0x100000000) : (ofSlot n).slot = n := by
  simpa [ofSlot, slot] using h

theorem ofSlot_slot (g : GroupId) : ofSlot g.slot = g := by
  simp [ofSlot, slot]

end GroupId

end SnapshotStore
