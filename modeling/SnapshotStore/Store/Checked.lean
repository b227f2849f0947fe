import SnapshotStore.Payload
import SnapshotStore.Store.Read

namespace SnapshotStore

open Payload (Trap range)

/-- The same delivery, with each range of bytes looked at where it is overwritten. -/
def Destination.tryWriteBytes (dst : Destination UInt8) (bs : Bytes) :
    Except Trap (Except StoreError Unit × Destination UInt8) :=
  match dst.ensureRoom bs.length with
  | .error e => .ok (.error e, dst)
  | .ok () =>
    match dst with
    | .own buffer => do
      let _ ← range buffer 0 bs.length
      return (.ok (), .own (bs ++ buffer.drop bs.length))
    | .foreign arena addr =>
      match arena.window addr bs.length with
      | .error fault => .ok (.error (.copyFault fault), .foreign arena addr)
      | .ok start => do
        let _ ← range arena.memory.toList start (start + bs.length)
        return (.ok (), .foreign (arena.store addr bs).2 addr)

/-- The same read, with each step on words and each range of bytes looked at. -/
def Store.tryRead (s : Store) (id : GroupId) (key : Key) (offset length : Nat)
    (dst : Destination UInt8) : Except Trap (Except StoreError Nat × Destination UInt8) :=
  match s.get id key with
  | .error e => .ok (.error e, dst)
  | .ok entry =>
    if entry.len ≤ offset then
      .ok (.error (.invalidArgument (.offsetOutside offset entry.len)), dst)
    else do
      let left ← (Word.sub entry.len offset).mapError .arithmetic
      let n := min length left
      let stop ← (Word.add offset n).mapError .arithmetic
      let bs ← range entry.payload offset stop
      let (result, dst) ← dst.tryWriteBytes bs
      return (result.map fun _ => n, dst)

end SnapshotStore
