import SnapshotStore.Index.Update
import SnapshotStore.Reclamation
import SnapshotStore.Store.Config

namespace SnapshotStore

/-- A name space of keys: the index that readers see now. -/
structure Group where
  id : GroupId
  index : Index
  deriving DecidableEq, Repr

namespace Group

def size (g : Group) : Nat := g.index.size

def isEmpty (g : Group) : Bool := g.index.isEmpty

def outline (g : Group) : Outline :=
  .record "Group" [("id", g.id.outline), ("len", .nat g.size)]

end Group

/-- One index of a group, kept as it was however the group goes on. -/
structure Snapshot where
  group : GroupId
  index : Index
  deriving DecidableEq, Repr

namespace Snapshot

def outline (s : Snapshot) : Outline :=
  .record "Snapshot" [("group", s.group.outline), ("len", .nat s.index.size)]

end Snapshot

/-- All groups exist from the start; the first `allocated` of them have been handed out. -/
structure Store where
  config : Config
  groups : List Group
  allocated : Nat
  reclaimer : Reclaimer
  deriving DecidableEq, Repr

namespace Store

def init (config : Config) : Except StoreError Store :=
  match config.validate with
  | .error e => .error e
  | .ok () => .ok {
      config := config
      groups := (List.range config.maxGroups).map fun n => ⟨.ofSlot n, .empty⟩
      allocated := 0
      reclaimer := { eager := config.eagerReclaim } }

/-- Group ids are handed out in order and never twice. -/
def allocate (s : Store) : Except StoreError GroupId × Store :=
  if s.allocated < s.groups.length then
    (.ok (.ofSlot s.allocated), { s with allocated := s.allocated + 1 })
  else
    (.error (.resourceExhausted (.groupsAllocated s.groups.length)), s)

def group (s : Store) (id : GroupId) : Except StoreError Group :=
  if id.slot < s.allocated then
    match s.groups[id.slot]? with
    | some g => .ok g
    | none => .error (.groupNotFound id)
  else
    .error (.groupNotFound id)

def groupSize (s : Store) (id : GroupId) : Except StoreError Nat :=
  (s.group id).map Group.size

def sizes (s : Store) : List Nat :=
  (s.groups.take s.allocated).map Group.size

def quiesce (s : Store) (collector : Collector) (held : Bool) : Store :=
  { s with reclaimer := { s.reclaimer with counts := s.reclaimer.counts.collect collector held } }

def outline (s : Store) : Outline :=
  .record "Registry" [("config", s.config.outline), ("allocated", .nat s.allocated),
    ("groups", .list (s.groups.map Group.outline))]

end Store

end SnapshotStore
