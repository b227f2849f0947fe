namespace SnapshotStore

abbrev Bytes := List UInt8

namespace Bytes

/-- The `n` low bytes of `x`, least significant first. -/
def ofNat : Nat → Nat → Bytes
  | 0, _ => []
  | n + 1, x => UInt8.ofNat x :: ofNat n (x / 256)

def toNat : Bytes → Nat
  | [] => 0
  | b :: bs => b.toNat + 256 * toNat bs

def ofWord (x : UInt64) : Bytes := ofNat 8 x.toNat

def toWord (bs : Bytes) : UInt64 := UInt64.ofNat (toNat bs)

def ofHalf (x : UInt32) : Bytes := ofNat 4 x.toNat

def toHalf (bs : Bytes) : UInt32 := UInt32.ofNat (toNat bs)

def words : Nat → Bytes → List UInt64
  | 0, _ => []
  | n + 1, bs => toWord (bs.take 8) :: words n (bs.drop 8)

end Bytes

end SnapshotStore
