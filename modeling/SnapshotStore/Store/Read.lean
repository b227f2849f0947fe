import SnapshotStore.Store.Basic
import SnapshotStore.Transfer

namespace SnapshotStore.Store

def snapshot (s : Store) (id : GroupId) : Except StoreError Snapshot :=
  (s.group id).map fun g => ⟨id, g.index⟩

def withEntry {α : Type} (s : Store) (id : GroupId) (key : Key) (view : Entry → α) :
    Except StoreError α :=
  match s.snapshot id with
  | .error e => .error e
  | .ok snap =>
    match snap.index.get? key with
    | none => .error (.keyNotFound id key)
    | some entry => .ok (view entry)

def get (s : Store) (id : GroupId) (key : Key) : Except StoreError Entry :=
  s.withEntry id key fun entry => entry

/-- Deliver at most `length` bytes of a payload from `offset` on, fewer where the payload ends. -/
def read (s : Store) (id : GroupId) (key : Key) (offset length : Nat)
    (dst : Destination UInt8) : Except StoreError Nat × Destination UInt8 :=
  match s.get id key with
  | .error e => (.error e, dst)
  | .ok entry =>
    if entry.len ≤ offset then
      (.error (.invalidArgument (.offsetOutside offset entry.len)), dst)
    else
      let n := min length (entry.len - offset)
      match dst.writeBytes ((entry.payload.drop offset).take n) with
      | (.error e, dst) => (.error e, dst)
      | (.ok (), dst) => (.ok n, dst)

/-- Deliver the `capacity` smallest keys, or all keys of a smaller group. -/
def listKeys (s : Store) (id : GroupId) (capacity : Nat) (dst : Destination Key) :
    Except StoreError Nat × Destination Key :=
  match s.snapshot id with
  | .error e => (.error e, dst)
  | .ok snap =>
    match dst.ensureRoom capacity with
    | .error e => (.error e, dst)
    | .ok () =>
      let keys := snap.index.keys.take capacity
      match dst.writeKeys 0 keys with
      | (.error e, dst) => (.error e, dst)
      | (.ok (), dst) => (.ok keys.length, dst)

/-- Hand the entries to `visit` one by one until it stops with an answer. -/
def visitAll {σ β : Type} (visit : Entry → σ → Option β × σ) : List Entry → σ → Option β × σ
  | [], state => (none, state)
  | entry :: rest, state =>
    match visit entry state with
    | (some answer, state) => (some answer, state)
    | (none, state) => visitAll visit rest state

/-- The visitor may carry the store itself along and write to it: the entries visited are those
of the moment of the call. -/
def forEach {σ β : Type} (s : Store) (id : GroupId) (visit : Entry → σ → Option β × σ)
    (state : σ) : Except StoreError (Option β × σ) :=
  (s.snapshot id).map fun snap => visitAll visit snap.index.toList state

end SnapshotStore.Store
