import SnapshotStore.Entry

namespace SnapshotStore

/-- The entries of one group at one moment. Every builder keeps them strictly ascending by key;
nothing changes an index in place. -/
structure Index where
  entries : Array Entry
  deriving DecidableEq, Repr

/-- Where a key belongs among `n` entries: at a position, or in the gap before one. -/
inductive Place (n : Nat) where
  | found (pos : Fin n)
  | vacant (pos : Fin (n + 1))
  deriving DecidableEq, Repr

namespace Place

def position {n : Nat} : Place n → Nat
  | .found pos => pos.val
  | .vacant pos => pos.val

end Place

namespace Index

def empty : Index := ⟨#[]⟩

abbrev size (ix : Index) : Nat := ix.entries.size

def isEmpty (ix : Index) : Bool := ix.entries.isEmpty

def toList (ix : Index) : List Entry := ix.entries.toList

def keys (ix : Index) : List Key := ix.toList.map Entry.key

def Ascending (ix : Index) : Prop := ix.keys.Pairwise (· < ·)

def strictlyAscending : List Key → Bool
  | a :: b :: rest => a < b && strictlyAscending (b :: rest)
  | _ => true

def isAscending (ix : Index) : Bool := strictlyAscending ix.keys

def outline (ix : Index) : Outline :=
  .record "Index" [("entries", .list (ix.toList.map Entry.outline))]

end Index

end SnapshotStore
