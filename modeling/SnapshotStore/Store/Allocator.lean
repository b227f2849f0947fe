import SnapshotStore.Store.Write

namespace SnapshotStore

/-- What is answered to requests for memory: for the bytes of a payload, and for the entries of an
index. -/
structure Allocator where
  payload : Nat → Except Refusal Unit
  index : Nat → Except Refusal Unit

/-- Nothing but a payload is ever refused memory. -/
def Allocator.usual : Allocator := ⟨reserve, fun _ => .ok ()⟩

/-- Where indexes and payloads come from, and who destroys them. -/
structure Heap extends Allocator where
  collector : Collector

def Heap.usual : Heap := ⟨.usual, .usual⟩

@[simp] theorem Heap.toAllocator_usual : Heap.usual.toAllocator = .usual := rfl

def Index.reserve (room : Allocator) (ix : Index) : Except StoreError Unit :=
  match room.index ix.size with
  | .error refusal => .error (.outOfMemory (.index ix.size refusal))
  | .ok () => .ok ()

def Entry.copyWithin (room : Allocator) (group : GroupId) (key : Key) (src : Source) :
    Except StoreError Entry :=
  match room.payload src.len with
  | .error refusal => .error (.outOfMemory (.payload src.len refusal))
  | .ok () =>
    match src.fetch with
    | .error fault => .error (.copyFault fault)
    | .ok payload => .ok ⟨group, key, payload⟩

namespace Store

/-- The write when memory is scarce: `room` may refuse it at any point. -/
def putFromWithin (room : Allocator) (s : Store) (id : GroupId) (key : Key) (src : Source) :
    Except StoreError PutOutcome × Store :=
  match s.group id with
  | .error e => (.error e, s)
  | .ok g =>
    if s.config.maxEntryLen < src.len then
      (.error (.invalidArgument (.payloadTooLong src.len s.config.maxEntryLen)), s)
    else
      match Entry.copyWithin room id key src with
      | .error e => (.error e, s)
      | .ok entry =>
        let (index, old) := g.index.upsert entry
        match index.reserve room with
        | .error e => (.error e, s)
        | .ok () =>
          match old with
          | some _ => (.ok .replaced, s.publish id index true)
          | none => (.ok .inserted, s.publish id index false)

/-- A key that is not there is noticed before memory is asked for. -/
def removeWithin (room : Allocator) (s : Store) (id : GroupId) (key : Key) :
    Except StoreError Entry × Store :=
  match s.group id with
  | .error e => (.error e, s)
  | .ok g =>
    match g.index.remove key with
    | none => (.error (.keyNotFound id key), s)
    | some (index, entry) =>
      match index.reserve room with
      | .error e => (.error e, s)
      | .ok () => (.ok entry, s.publish id index true)

theorem putFromWithin_usual (s : Store) (id : GroupId) (key : Key) (src : Source) :
    s.putFromWithin .usual id key src = s.putFrom id key src := by
  have hcopy : Entry.copyWithin .usual id key src = Entry.copyFrom id key src := rfl
  unfold putFromWithin putFrom
  cases s.group id with
  | error e => rfl
  | ok g =>
    simp only [hcopy]
    split
    · rfl
    · cases Entry.copyFrom id key src with
      | error e => rfl
      | ok entry =>
        dsimp only
        generalize g.index.upsert entry = made
        obtain ⟨index, _ | old⟩ := made <;> rfl

theorem removeWithin_usual (s : Store) (id : GroupId) (key : Key) :
    s.removeWithin .usual id key = s.remove id key := by
  unfold removeWithin remove
  cases s.group id with
  | error e => rfl
  | ok g => cases g.index.remove key <;> rfl

end Store

end SnapshotStore
