import SnapshotStore.Session.Basic

namespace SnapshotStore

namespace Payload.Origin

def source? (origin : Origin) (arenas : List Arena) : Option Source :=
  match origin with
  | .own bytes => some (.own bytes)
  | .foreign n addr len => arenas[n]?.map fun arena => .foreign arena addr len

end Payload.Origin

namespace Target

variable {α : Type}

def destination? (target : Target α) (arenas : List Arena) : Option (Destination α) :=
  match target with
  | .own buffer => some (.own buffer)
  | .foreign n addr => arenas[n]?.map fun arena => .foreign arena addr

def buffer? : Destination α → Option (List α)
  | .own buffer => some buffer
  | .foreign _ _ => none

def putBack (target : Target α) (dst : Destination α) (arenas : List Arena) : List Arena :=
  match target, dst with
  | .foreign n _, .foreign arena _ => arenas.set n arena
  | _, _ => arenas

end Target

namespace Visit

/-- What a visit has done so far: the store it writes to and the keys it has seen, latest first. -/
structure Progress where
  store : Store
  seen : List Key

def copy (v : Visit) (entry : Entry) (store : Store) : Except StoreError Unit × Store :=
  match v.copyTo with
  | none => (.ok (), store)
  | some id =>
    match store.put id entry.key entry.payload with
    | (.ok _, store) => (.ok (), store)
    | (.error e, store) => (.error e, store)

def stops (v : Visit) (key : Key) (count : Nat) : Bool :=
  v.stopAtKey.any (· ≤ key) || v.stopAfter.any (· = count)

def visit (v : Visit) (entry : Entry) (p : Progress) : Option Stop × Progress :=
  let seen := entry.key :: p.seen
  match v.copy entry p.store with
  | (.error e, store) => (some (.failed e), { store, seen })
  | (.ok (), store) =>
    (if v.stops entry.key seen.length then some (.entry entry) else none, { store, seen })

end Visit

namespace Session

/-- Ask the store; what it answers is a reply, and nothing changes. -/
def ask {α : Type} (s : Session) (answer : Except StoreError α) (reply : α → Reply) :
    Reply × Session :=
  match answer with
  | .ok a => (reply a, s)
  | .error e => (.failed e, s)

/-- Have the store do something; it may change even though the answer is a plain value. -/
def act {α : Type} (s : Session) (result : Except StoreError α × Store) (reply : α → Reply) :
    Reply × Session :=
  match result with
  | (.ok a, store) => (reply a, { s with store })
  | (.error e, store) => (.failed e, { s with store })

def withSnapshot (s : Session) (name : String) (reply : Snapshot → Reply) : Reply × Session :=
  match s.snapshots.get? name with
  | some snap => (reply snap, s)
  | none => (.unknown, s)

def withArena (s : Session) (n : Nat) (reply : Arena → Reply) : Reply × Session :=
  match s.arenas[n]? with
  | some arena => (reply arena, s)
  | none => (.unknown, s)

/-- Have an arena changed by a call across the boundary. -/
def transfer (s : Session) (n : Nat) (call : Arena → Except CopyFault Unit × Arena) :
    Reply × Session :=
  match s.arenas[n]? with
  | none => (.unknown, s)
  | some arena =>
    match call arena with
    | (.ok (), arena) => (.done, { s with arenas := s.arenas.set n arena })
    | (.error fault, arena) => (.faulted fault, { s with arenas := s.arenas.set n arena })

def quiesce (s : Session) (collector : Collector) : Reply × Session :=
  let store := s.store.quiesce collector !s.snapshots.isEmpty
  (.reclamation store.reclaimer.counts, { s with store })

def step (s : Session) : Request → Reply × Session
  | .allocate => s.act s.store.allocate .allocated
  | .counts => (.counts s.store.allocated s.store.groups.length, s)
  | .config => (.config s.store.config, s)
  | .group id => s.ask (s.store.group id) .group
  | .groupSize id => s.ask (s.store.groupSize id) .size
  | .outline => (.outline s.store.outline, s)
  | .put id key payload => s.act (s.store.put id key payload) .outcome
  | .putFrom id key origin =>
    match origin.source? s.arenas with
    | some src => s.act (s.store.putFrom id key src) .outcome
    | none => (.unknown, s)
  | .remove id key => s.act (s.store.remove id key) .entry
  | .get id key => s.ask (s.store.get id key) .entry
  | .withEntry id key =>
    s.ask (s.store.withEntry id key fun e => (e.len, e.payload)) fun r => .payload r.1 r.2
  | .read id key offset length target =>
    match target.destination? s.arenas with
    | some dst =>
      let (result, dst) := s.store.read id key offset length dst
      (.read result (Target.buffer? dst), { s with arenas := target.putBack dst s.arenas })
    | none => (.unknown, s)
  | .listKeys id capacity target =>
    match target.destination? s.arenas with
    | some dst =>
      let (result, dst) := s.store.listKeys id capacity dst
      (.listed result (Target.buffer? dst), { s with arenas := target.putBack dst s.arenas })
    | none => (.unknown, s)
  | .forEach id v =>
    match s.store.forEach id v.visit { store := s.store, seen := [] } with
    | .ok (stop, p) => (.visited p.seen.reverse stop, { s with store := p.store })
    | .error e => (.failed e, s)
  | .hold id key name =>
    match s.store.get id key with
    | .ok entry => (.done, { s with held := s.held.bind name entry })
    | .error e => (.failed e, s)
  | .held name =>
    match s.held.get? name with
    | some entry => (.held entry, s)
    | none => (.unknown, s)
  | .snap id name =>
    match s.store.snapshot id with
    | .ok snap => (.size snap.index.size, { s with snapshots := s.snapshots.bind name snap })
    | .error e => (.failed e, s)
  | .snapDrop name =>
    (.dropped (s.snapshots.get? name).isSome, { s with snapshots := s.snapshots.drop name })
  | .snapInfo name => s.withSnapshot name .snapshot
  | .snapGet name key => s.withSnapshot name fun snap => .found (snap.index.get? key)
  | .snapSearch name key => s.withSnapshot name fun snap => .place (snap.index.search key)
  | .snapEntries name => s.withSnapshot name fun snap => .entries snap.index.toList
  | .snapKeys name => s.withSnapshot name fun snap => .keys snap.index.keys
  | .snapRange name first => s.withSnapshot name fun snap => .entries (snap.index.tail first)
  | .stats =>
    (.retired s.store.reclaimer.counts.retiredIndexes s.store.reclaimer.counts.retiredEntries, s)
  | .quiesce => s.quiesce .usual
  | .arenaInfo n => s.withArena n fun arena => .window arena.base arena.size
  | .arenaLoad n addr len => s.withArena n fun arena =>
    match arena.load addr len with
    | .ok bs => .bytes bs
    | .error fault => .faulted fault
  | .arenaKeys n addr count => s.withArena n fun arena =>
    match arena.loadKeys addr count with
    | .ok ks => .keys ks
    | .error fault => .faulted fault
  | .arenaStore n addr bytes => s.transfer n fun arena => arena.store addr bytes
  | .arenaCopyOut n addr bytes => s.transfer n fun arena => arena.copyOut addr bytes
  | .arenaCopyIn n addr buffer => s.withArena n fun arena =>
    let (result, buffer) := arena.copyIn addr buffer
    .copied result buffer

def run (s : Session) : List Request → List Reply × Session
  | [] => ([], s)
  | r :: rest =>
    let (reply, s) := s.step r
    let (replies, s) := s.run rest
    (reply :: replies, s)

end Session

end SnapshotStore
