import SnapshotStore.Reclamation

namespace SnapshotStore

namespace Reclamation

def isSettled (r : Reclamation) : Except Overflow Bool :=
  r.pending.map (· == 0)

def backlog (r : Reclamation) : Except Overflow (Nat × Nat) := do
  let indexes ← Word.sub r.retiredIndexes.toNat r.reclaimedIndexes.toNat
  let entries ← Word.sub r.retiredEntries.toNat r.reclaimedEntries.toNat
  pure (indexes, entries)

end Reclamation

namespace Reclaimer

/-- Nobody waits longer than so many rounds. -/
def roundLimit : Nat := 10000

/-- Wait until nothing is pending, or for `rounds` more rounds. Call number `n` for the counters is
answered `answers n`, and the result is the answer to the last call with the backlog in it. -/
def await (answers : Nat → Reclamation) :
    (rounds call : Nat) → Except Overflow (Reclamation × Nat × Nat)
  | 0, call => (answers call).backlog.map ((answers call), ·)
  | rounds + 1, call => do
    if ← (answers call).isSettled then
      (answers (call + 1)).backlog.map ((answers (call + 1)), ·)
    else
      await answers rounds (call + 1)

def quiesce (answers : Nat → Reclamation) : Except Overflow (Reclamation × Nat × Nat) :=
  await answers roundLimit 0

end Reclaimer

end SnapshotStore
