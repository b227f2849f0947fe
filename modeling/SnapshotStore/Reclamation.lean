import SnapshotStore.Data.Word
import SnapshotStore.Text.Outline

namespace SnapshotStore

/-- How many indexes and entries writers have given up, and how many of them are destroyed. -/
structure Reclamation where
  retiredIndexes : UInt64 := 0
  retiredEntries : UInt64 := 0
  reclaimedIndexes : UInt64 := 0
  reclaimedEntries : UInt64 := 0
  deriving DecidableEq, Repr

namespace Reclamation

def pending (r : Reclamation) : Except Overflow Nat := do
  let indexes ← Word.sub r.retiredIndexes.toNat r.reclaimedIndexes.toNat
  let entries ← Word.sub r.retiredEntries.toNat r.reclaimedEntries.toNat
  Word.add indexes entries

/-- A write gives up one index and, when an entry gave way, that entry. -/
def retire (r : Reclamation) (entry : Bool) : Reclamation :=
  { r with
    retiredIndexes := r.retiredIndexes + 1
    retiredEntries := if entry then r.retiredEntries + 1 else r.retiredEntries }

def outline (name : String) (r : Reclamation) : Outline :=
  .record name [("retired_indexes", .word r.retiredIndexes),
    ("retired_entries", .word r.retiredEntries),
    ("reclaimed_indexes", .word r.reclaimedIndexes),
    ("reclaimed_entries", .word r.reclaimedEntries)]

end Reclamation

/-- How many indexes and entries a collector has destroyed by the time that nobody waits for it any
longer. It may matter to it whether snapshots are `held`. -/
structure Collector where
  indexes : (held : Bool) → Reclamation → UInt64
  entries : (held : Bool) → Reclamation → UInt64

/-- Destroys all that was retired once no snapshot is held, and nothing before. -/
def Collector.usual : Collector where
  indexes held r := if held then r.reclaimedIndexes else r.retiredIndexes
  entries held r := if held then r.reclaimedEntries else r.retiredEntries

def Reclamation.collect (r : Reclamation) (collector : Collector) (held : Bool) : Reclamation :=
  { r with
    reclaimedIndexes := collector.indexes held r
    reclaimedEntries := collector.entries held r }

/-- Takes care of what writers retire. -/
structure Reclaimer where
  eager : Bool
  counts : Reclamation := {}
  deriving DecidableEq, Repr

namespace Reclaimer

def outline (r : Reclaimer) : Outline :=
  .record "Reclaimer" [("eager", .flag r.eager), ("counters", r.counts.outline "Counters")]

end Reclaimer

end SnapshotStore
