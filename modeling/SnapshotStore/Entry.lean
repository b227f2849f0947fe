import SnapshotStore.Error

namespace SnapshotStore

/-- An immutable record; an update makes a new one. -/
structure Entry where
  group : GroupId
  key : Key
  payload : Bytes
  deriving DecidableEq, Repr

namespace Entry

def len (e : Entry) : Nat := e.payload.length

def isEmpty (e : Entry) : Bool := e.payload.isEmpty

def outline (e : Entry) : Outline :=
  .record "Entry" [("group", e.group.outline), ("key", .word e.key),
    ("payload", .atom (Text.quoteBytes e.payload))]

end Entry

end SnapshotStore
