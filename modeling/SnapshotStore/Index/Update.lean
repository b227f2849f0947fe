import SnapshotStore.Index.Search

namespace SnapshotStore.Index

def get? (ix : Index) (key : Key) : Option Entry :=
  match ix.search key with
  | .found pos => some ix.entries[pos]
  | .vacant _ => none

def keepLast : List Entry → List Entry
  | e :: f :: rest => if e.key = f.key then keepLast (f :: rest) else e :: keepLast (f :: rest)
  | es => es

/-- Entries in any order; of several with one key the last wins, since the sort is stable. -/
def ofEntries (es : List Entry) : Index :=
  ⟨(keepLast (es.mergeSort fun e f => e.key ≤ f.key)).toArray⟩

/-- The index with `e` in it, and the entry that had to give way. -/
def upsert (ix : Index) (e : Entry) : Index × Option Entry :=
  match ix.search e.key with
  | .found pos => (⟨ix.entries.set pos e⟩, some ix.entries[pos])
  | .vacant pos => (⟨ix.entries.insertIdx pos e (Nat.lt_succ_iff.1 pos.isLt)⟩, none)

def remove (ix : Index) (key : Key) : Option (Index × Entry) :=
  match ix.search key with
  | .found pos => some (⟨ix.entries.eraseIdx pos⟩, ix.entries[pos])
  | .vacant _ => none

end SnapshotStore.Index
