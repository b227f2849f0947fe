import SnapshotStore.Data.Bytes

namespace SnapshotStore.Crc32

/-- The generator of CRC-32 with its bits reflected. -/
def generator : UInt32 := 0xEDB88320

/-- Divide the register by `x` modulo the generator. -/
def stepBit (r : UInt32) : UInt32 :=
  if r &&& 1 = 1 then (r >>> 1) ^^^ generator else r >>> 1

def stepBits : Nat → UInt32 → UInt32
  | 0, r => r
  | n + 1, r => stepBits n (stepBit r)

def stepByte (r : UInt32) (b : UInt8) : UInt32 :=
  stepBits 8 (r ^^^ b.toUInt32)

def register (r : UInt32) (bs : Bytes) : UInt32 :=
  bs.foldl stepByte r

def checksum (bs : Bytes) : UInt32 :=
  register 0xFFFFFFFF bs ^^^ 0xFFFFFFFF

theorem register_append (r : UInt32) (as bs : Bytes) :
    register r (as ++ bs) = register (register r as) bs :=
  List.foldl_append

end SnapshotStore.Crc32
