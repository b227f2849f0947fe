import SnapshotStore.Store.Basic
import SnapshotStore.Transfer

namespace SnapshotStore

inductive PutOutcome where
  | inserted
  | replaced
  deriving DecidableEq, Repr

def allocatorLimit : Nat := 0x800000000000

def reserve (len : Nat) : Except Refusal Unit :=
  if maxBuffer < len then .error .capacity
  else if allocatorLimit ≤ len then .error .allocator
  else .ok ()

namespace Entry

/-- Memory for the payload is reserved before the source is looked at. -/
def copyFrom (group : GroupId) (key : Key) (src : Source) : Except StoreError Entry :=
  match reserve src.len with
  | .error refusal => .error (.outOfMemory (.payload src.len refusal))
  | .ok () =>
    match src.fetch with
    | .error fault => .error (.copyFault fault)
    | .ok payload => .ok ⟨group, key, payload⟩

end Entry

namespace Store

/-- Make `index` the one that readers of the group see, and retire the one before it. -/
def publish (s : Store) (id : GroupId) (index : Index) (gaveWay : Bool) : Store :=
  { s with
    groups := s.groups.modify id.slot fun g => { g with index := index }
    reclaimer := { s.reclaimer with counts := s.reclaimer.counts.retire gaveWay } }

def putFrom (s : Store) (id : GroupId) (key : Key) (src : Source) :
    Except StoreError PutOutcome × Store :=
  match s.group id with
  | .error e => (.error e, s)
  | .ok g =>
    if s.config.maxEntryLen < src.len then
      (.error (.invalidArgument (.payloadTooLong src.len s.config.maxEntryLen)), s)
    else
      match Entry.copyFrom id key src with
      | .error e => (.error e, s)
      | .ok entry =>
        match g.index.upsert entry with
        | (index, some _) => (.ok .replaced, s.publish id index true)
        | (index, none) => (.ok .inserted, s.publish id index false)

def put (s : Store) (id : GroupId) (key : Key) (payload : Bytes) :
    Except StoreError PutOutcome × Store :=
  s.putFrom id key (.own payload)

def remove (s : Store) (id : GroupId) (key : Key) : Except StoreError Entry × Store :=
  match s.group id with
  | .error e => (.error e, s)
  | .ok g =>
    match g.index.remove key with
    | none => (.error (.keyNotFound id key), s)
    | some (index, entry) => (.ok entry, s.publish id index true)

end Store

end SnapshotStore
