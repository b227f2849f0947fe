import SnapshotStore.Arena

namespace SnapshotStore

/-- Where a write takes its payload from. -/
inductive Source where
  | own (bytes : Bytes)
  | foreign (arena : Arena) (addr : Address) (len : Nat)

namespace Source

def len : Source → Nat
  | .own bytes => bytes.length
  | .foreign _ _ len => len

def isEmpty (src : Source) : Bool := src.len = 0

def fetch : Source → Except CopyFault Bytes
  | .own bytes => .ok bytes
  | .foreign arena addr len => arena.load addr len

end Source

/-- Where a read delivers: a buffer of the caller, or foreign memory from an address on. -/
inductive Destination (α : Type) where
  | own (buffer : List α)
  | foreign (arena : Arena) (addr : Address)
  deriving DecidableEq

namespace Destination

/-- Only a buffer of the caller has a known size; foreign memory is checked by each transfer. -/
def ensureRoom {α : Type} (dst : Destination α) (count : Nat) : Except StoreError Unit :=
  match dst with
  | .own buffer =>
    if buffer.length < count then
      .error (.invalidArgument (.tooLittleRoom buffer.length count))
    else
      .ok ()
  | .foreign _ _ => .ok ()

def writeBytes (dst : Destination UInt8) (bs : Bytes) :
    Except StoreError Unit × Destination UInt8 :=
  match dst.ensureRoom bs.length with
  | .error e => (.error e, dst)
  | .ok () =>
    match dst with
    | .own buffer => (.ok (), .own (bs ++ buffer.drop bs.length))
    | .foreign arena addr =>
      match arena.store addr bs with
      | (.ok (), arena) => (.ok (), .foreign arena addr)
      | (.error fault, arena) => (.error (.copyFault fault), .foreign arena addr)

/-- The address of the key with number `slot` in a foreign list of keys. -/
def slotAddress (addr : Address) (slot : Nat) : Except Overflow Address := do
  let offset ← Word.mul slot keySize
  let target ← Word.add addr.toNat offset
  pure (UInt64.ofNat target)

def writeKey (dst : Destination Key) (slot : Nat) (key : Key) :
    Except StoreError Unit × Destination Key :=
  match dst with
  | .own buffer =>
    if slot < buffer.length then
      (.ok (), .own (buffer.set slot key))
    else
      (.error (.invalidArgument (.slotOutside slot buffer.length)), dst)
  | .foreign arena addr =>
    match slotAddress addr slot with
    | .error _ => (.error (.copyFault ⟨addr, keySize⟩), dst)
    | .ok target =>
      match arena.store target (Bytes.ofWord key) with
      | (.ok (), arena) => (.ok (), .foreign arena addr)
      | (.error fault, arena) => (.error (.copyFault fault), .foreign arena addr)

/-- Write keys to neighbouring slots up to the first that faults. -/
def writeKeys (dst : Destination Key) (slot : Nat) :
    List Key → Except StoreError Unit × Destination Key
  | [] => (.ok (), dst)
  | key :: keys =>
    match dst.writeKey slot key with
    | (.ok (), dst) => dst.writeKeys (slot + 1) keys
    | (.error e, dst) => (.error e, dst)

end Destination

end SnapshotStore
