import SnapshotStore.Index.Basic

namespace SnapshotStore.Index

/-- Halve `[lo, hi)` until it is empty: keys before it are below `key`, keys after it are not. -/
def narrow (es : Array Entry) (key : Key) (lo hi : Nat) (hhi : hi ≤ es.size) : Nat :=
  if hlt : lo < hi then
    have hmid : (lo + hi) / 2 < es.size := by omega
    if es[(lo + hi) / 2].key < key then
      narrow es key ((lo + hi) / 2 + 1) hi hhi
    else
      narrow es key lo ((lo + hi) / 2) (by omega)
  else
    lo
termination_by hi - lo

def rank (ix : Index) (key : Key) : Nat :=
  narrow ix.entries key 0 ix.size (Nat.le_refl _)

def search (ix : Index) (key : Key) : Place ix.size :=
  let pos := ix.rank key
  if h : pos < ix.size then
    if ix.entries[pos].key = key then .found ⟨pos, h⟩ else .vacant ⟨pos, by omega⟩
  else
    .vacant ⟨ix.size, by omega⟩

def tail (ix : Index) (key : Key) : List Entry :=
  ix.toList.drop (ix.search key).position

end SnapshotStore.Index
