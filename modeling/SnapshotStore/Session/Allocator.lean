import SnapshotStore.Session.Step
import SnapshotStore.Store.Allocator

namespace SnapshotStore.Session

/-- A step when memory is scarce and the collector takes its time. Only writes ask for memory; what
a visitor writes is left to the usual allocator. -/
def stepWithin (heap : Heap) (s : Session) : Request → Reply × Session
  | .put id key payload =>
    s.act (s.store.putFromWithin heap.toAllocator id key (.own payload)) .outcome
  | .putFrom id key origin =>
    match origin.source? s.arenas with
    | some src => s.act (s.store.putFromWithin heap.toAllocator id key src) .outcome
    | none => (.unknown, s)
  | .remove id key => s.act (s.store.removeWithin heap.toAllocator id key) .entry
  | .quiesce => s.quiesce heap.collector
  | r => s.step r

theorem stepWithin_usual (s : Session) (r : Request) : s.stepWithin .usual r = s.step r := by
  cases r with
  | put id key payload =>
    simp only [stepWithin, step, Heap.toAllocator_usual, Store.putFromWithin_usual, Store.put]
  | putFrom id key origin =>
    cases hsrc : origin.source? s.arenas with
    | none => simp only [stepWithin, step, hsrc]
    | some src =>
      simp only [stepWithin, step, hsrc, Heap.toAllocator_usual, Store.putFromWithin_usual]
  | remove id key =>
    simp only [stepWithin, step, Heap.toAllocator_usual, Store.removeWithin_usual]
  | _ => rfl

end SnapshotStore.Session
