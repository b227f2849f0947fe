import SnapshotStore.Data.Named
import SnapshotStore.Store.Read
import SnapshotStore.Store.Write

namespace SnapshotStore

/-- A store in use: the foreign memories it talks to, and the snapshots and entries that its
user holds on to under names. -/
structure Session where
  store : Store
  arenas : List Arena := []
  snapshots : Named Snapshot := {}
  held : Named Entry := {}
  deriving DecidableEq

/-- A source or destination as a request names it; `arena` is a position among the arenas. -/
inductive Payload.Origin where
  | own (bytes : Bytes)
  | foreign (arena : Nat) (addr : Address) (len : Nat)
  deriving DecidableEq, Repr

inductive Target (α : Type) where
  | own (buffer : List α)
  | foreign (arena : Nat) (addr : Address)
  deriving DecidableEq, Repr

/-- A visitor that may copy what it sees to a group and may stop at a key or after a count. -/
structure Visit where
  copyTo : Option GroupId := none
  stopAtKey : Option Key := none
  stopAfter : Option Nat := none
  deriving DecidableEq, Repr

/-- Why a visit ended early: at an entry, or because copying it failed. -/
inductive Stop where
  | entry (e : Entry)
  | failed (e : StoreError)
  deriving DecidableEq, Repr

inductive Request where
  | allocate
  | counts
  | config
  | group (id : GroupId)
  | groupSize (id : GroupId)
  | outline
  | put (id : GroupId) (key : Key) (payload : Bytes)
  | putFrom (id : GroupId) (key : Key) (origin : Payload.Origin)
  | remove (id : GroupId) (key : Key)
  | get (id : GroupId) (key : Key)
  | withEntry (id : GroupId) (key : Key)
  | read (id : GroupId) (key : Key) (offset length : Nat) (target : Target UInt8)
  | listKeys (id : GroupId) (capacity : Nat) (target : Target Key)
  | forEach (id : GroupId) (visit : Visit)
  | hold (id : GroupId) (key : Key) (name : String)
  | held (name : String)
  | snap (id : GroupId) (name : String)
  | snapDrop (name : String)
  | snapInfo (name : String)
  | snapGet (name : String) (key : Key)
  | snapSearch (name : String) (key : Key)
  | snapEntries (name : String)
  | snapKeys (name : String)
  | snapRange (name : String) (start : Key)
  | stats
  | quiesce
  | arenaInfo (arena : Nat)
  | arenaLoad (arena : Nat) (addr : Address) (len : Nat)
  | arenaKeys (arena : Nat) (addr : Address) (count : Nat)
  | arenaStore (arena : Nat) (addr : Address) (bytes : Bytes)
  | arenaCopyOut (arena : Nat) (addr : Address) (bytes : Bytes)
  | arenaCopyIn (arena : Nat) (addr : Address) (buffer : Bytes)
  deriving DecidableEq, Repr

inductive Reply where
  | done
  | failed (e : StoreError)
  | faulted (fault : CopyFault)
  /-- The request names an arena, a snapshot or an entry that is not there. -/
  | unknown
  | allocated (id : GroupId)
  | counts (allocated limit : Nat)
  | config (c : Config)
  | group (g : Group)
  | size (n : Nat)
  | outline (o : Outline)
  | outcome (o : PutOutcome)
  | entry (e : Entry)
  | found (e : Option Entry)
  | payload (len : Nat) (bytes : Bytes)
  | read (result : Except StoreError Nat) (buffer : Option Bytes)
  | listed (result : Except StoreError Nat) (buffer : Option (List Key))
  | visited (keys : List Key) (stop : Option Stop)
  | held (e : Entry)
  | dropped (was : Bool)
  | snapshot (s : Snapshot)
  | place {n : Nat} (p : Place n)
  | entries (es : List Entry)
  | keys (ks : List Key)
  | retired (indexes entries : UInt64)
  | reclamation (r : Reclamation)
  | window (base : Address) (size : Nat)
  | bytes (bs : Bytes)
  | copied (result : Except CopyFault Unit) (buffer : Bytes)

namespace Session

/-- First the store is set up, then the arenas, each by its first address and its size. -/
def start (config : Config) (windows : List (Address × UInt64)) : Except SetupFailure Session :=
  match Store.init config with
  | .error e => .error (.refused e)
  | .ok store =>
    match windows.mapM fun w => Arena.allocate w.1 w.2 with
    | .error o => .error (.overflow o)
    | .ok arenas => .ok { store, arenas }

end Session

end SnapshotStore
