import SnapshotStore.Data.Crc32
import SnapshotStore.Data.Xorshift
import SnapshotStore.Store.Read
import SnapshotStore.Store.Write
import SnapshotStore.Workload.Basic

namespace SnapshotStore

/-- After its operations a writer signs off, and the last to do so announces the end. -/
inductive WriterPhase where
  | working
  | announcing
  | gone
  deriving DecidableEq, Repr

structure Writer where
  group : GroupId
  seed : UInt64
  rng : Xorshift
  issued : UInt64 := 0
  phase : WriterPhase := .working
  deriving DecidableEq, Repr

/-- What a reader does next; between two passes it asks whether the writers are done. -/
inductive ReaderPhase where
  | poll
  | lookup (group : GroupId)
  | copy (group : GroupId) (key : Key)
  | reload (group : GroupId) (key : Key) (len : Nat)
  | list (group : GroupId)
  | reloadKeys (group : GroupId) (count : Nat)
  | scan (group : GroupId)
  | gone
  deriving DecidableEq, Repr

structure Reader where
  addr : Address
  rng : Xorshift
  /-- The writers were done when this pass began. -/
  last : Bool := false
  /-- Groups of this pass after the present one. -/
  rest : List GroupId := []
  phase : ReaderPhase := .poll
  deriving DecidableEq, Repr

/-- Everything that the writers and readers of a run share, and where each of them stands. -/
structure World where
  plan : Workload
  store : Store
  arena : Arena
  tally : Tally := {}
  writersLeft : Nat
  done : Bool
  writers : List Writer
  readers : List Reader
  deriving DecidableEq

namespace Destination

def arena {α : Type} : Destination α → Arena
  | .foreign arena _ => arena
  | .own _ => .zeroed 0 0

end Destination

def isSound (key : Key) (payload : Bytes) : Bool := (Payload.verify Crc32.checksum key payload).isOk

namespace Writer

def start (group : GroupId) (seed : UInt64) : Writer :=
  { group, seed, rng := .seeded seed }

def removesNext (wr : Writer) (plan : Workload) : Bool :=
  plan.removeEvery ≠ 0 && (wr.issued + 1) % plan.removeEvery = 0

def draw (wr : Writer) (plan : Workload) : Key × Writer :=
  let (x, rng) := wr.rng.draw
  (x % plan.keys, { wr with rng, issued := wr.issued + 1 })

def payload (wr : Writer) (plan : Workload) (key : Key) : Bytes :=
  Payload.encode Crc32.checksum key ((wr.seed <<< 32) ||| (wr.issued + 1)) plan.payloadLen

def operate (wr : Writer) (plan : Workload) (store : Store) (tally : Tally) :
    Writer × Store × Tally :=
  let (key, next) := wr.draw plan
  if wr.removesNext plan then
    match store.remove wr.group key with
    | (.ok entry, store) => (next, store, tally.remove.expect (isSound key entry.payload))
    | (.error e, store) => (next, store, tally.expect e.isNotFound)
  else
    match store.put wr.group key (wr.payload plan key) with
    | (.ok _, store) => (next, store, tally.put)
    | (.error _, store) => (next, store, tally.expect false)

end Writer

namespace Reader

def start (n : Nat) (layout : Layout) (base : Address) : Reader where
  addr := base + UInt64.ofNat (n * layout.slotSize)
  rng := .seeded (0xABCD + UInt64.ofNat n)

def advance (r : Reader) : Reader :=
  match r.rest with
  | group :: rest => { r with rest, phase := .lookup group }
  | [] => { r with phase := if r.last then .gone else .poll }

/-- What is wrong with a scanned entry. -/
inductive Flaw where
  | disorder (key : Key) (before : Key)
  | stray (group : GroupId)
  | payload (defect : Payload.Defect)
  deriving DecidableEq, Repr

/-- Keys ascend, entries belong to the group, payloads are sound. -/
def inspect (group : GroupId) (entry : Entry) (previous : Option Key) : Option Flaw × Option Key :=
  match previous.filter fun p => entry.key ≤ p with
  | some before => (some (.disorder entry.key before), previous)
  | none =>
    if entry.group ≠ group then
      (some (.stray entry.group), previous)
    else
      match Payload.verify Crc32.checksum entry.key entry.payload with
      | .error defect => (some (.payload defect), previous)
      | .ok _ => (none, some entry.key)

end Reader

namespace World

/-- The reader's part of the shared state: what it sees and what it may change. -/
def lookup (w : World) (r : Reader) (group : GroupId) : Reader × World :=
  let (x, rng) := r.rng.draw
  let key := x % w.plan.keys
  let found := w.store.get group key
  let tally := match found with
    | .ok entry => w.tally.get.expect (isSound key entry.payload)
    | .error e => w.tally.expect e.isNotFound
  ({ r with rng, phase := .copy group key }, { w with tally })

/-- Have the store deliver to foreign memory from `addr` on. The world is taken apart first, so
that nothing else refers to the memory and it can be changed in place. -/
def deliver {α : Type} (w : World) (addr : Address)
    (call : Store → Destination α → Except StoreError Nat × Destination α) :
    Except StoreError Nat × World :=
  match w with
  | { plan, store, arena, tally, writersLeft, done, writers, readers } =>
    let (result, dst) := call store (.foreign arena addr)
    (result, { plan, store, arena := dst.arena, tally, writersLeft, done, writers, readers })

def copy (w : World) (r : Reader) (group : GroupId) (key : Key) : Reader × World :=
  let len := w.plan.payloadLen
  match w.deliver r.addr fun store dst => store.read group key 0 len dst with
  | (.ok n, w) => ({ r with phase := .reload group key n }, { w with tally := w.tally.read })
  | (.error e, w) =>
    ({ r with phase := .list group }, { w with tally := w.tally.expect e.isNotFound })

def reload (w : World) (r : Reader) (group : GroupId) (key : Key) (len : Nat) : Reader × World :=
  let sound := match w.arena.load r.addr len with
    | .ok bytes => isSound key bytes
    | .error _ => false
  ({ r with phase := .list group }, { w with tally := w.tally.expect sound })

def list (w : World) (r : Reader) (group : GroupId) : Reader × World :=
  let capacity := w.plan.keys.toNat
  match w.deliver r.addr fun store dst => store.listKeys group capacity dst with
  | (.ok count, w) =>
    ({ r with phase := .reloadKeys group count }, { w with tally := w.tally.list })
  | (.error _, w) => ({ r with phase := .scan group }, { w with tally := w.tally.expect false })

def reloadKeys (w : World) (r : Reader) (group : GroupId) (count : Nat) : Reader × World :=
  let tally := match w.arena.loadKeys r.addr count with
    | .ok keys => (w.tally.expect (Index.strictlyAscending keys)).expect
        (keys.all fun key => key < w.plan.keys)
    | .error _ => w.tally.expect false
  ({ r with phase := .scan group }, { w with tally })

def scan (w : World) (r : Reader) (group : GroupId) : Reader × World :=
  let tally := match w.store.forEach group (Reader.inspect group) none with
    | .ok (none, _) => w.tally.scan
    | .ok (some _, _) => w.tally.expect false
    | .error _ => w.tally.expect false
  (r.advance, { w with tally })

def groups (w : World) : List GroupId := (List.range w.plan.groups).map GroupId.ofSlot

def stepReader (w : World) (r : Reader) : Reader × World :=
  match r.phase with
  | .poll => ({ r with last := w.done, rest := w.groups }.advance, w)
  | .lookup group => w.lookup r group
  | .copy group key => w.copy r group key
  | .reload group key len => w.reload r group key len
  | .list group => w.list r group
  | .reloadKeys group count => w.reloadKeys r group count
  | .scan group => w.scan r group
  | .gone => (r, w)

def stepWriter (w : World) (wr : Writer) : Writer × World :=
  match wr.phase with
  | .working =>
    if wr.issued < w.plan.opsPerWriter then
      let (wr, store, tally) := wr.operate w.plan w.store w.tally
      (wr, { w with store, tally })
    else
      ({ wr with phase := if w.writersLeft = 1 then .announcing else .gone },
        { w with writersLeft := w.writersLeft - 1 })
  | .announcing => ({ wr with phase := .gone }, { w with done := true })
  | .gone => (wr, w)

end World

end SnapshotStore
