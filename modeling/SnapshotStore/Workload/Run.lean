import SnapshotStore.Workload.Actors

namespace SnapshotStore

/-- A thread of a run, by its number among its kind. -/
inductive Actor where
  | writer (n : Nat)
  | reader (n : Nat)
  deriving DecidableEq, Repr

namespace World

def arenaBase : Address := 0x10000000

def allocateAll : Nat → Store → Store
  | 0, store => store
  | n + 1, store => allocateAll n store.allocate.2

def initial (plan : Workload) (layout : Layout) (store : Store) : World where
  plan := plan
  store := allocateAll plan.groups store
  arena := .zeroed arenaBase (UInt64.ofNat layout.arenaSize)
  writersLeft := layout.writers
  done := layout.writers = 0
  writers := (List.range layout.writers).map fun n =>
    .start (.ofSlot (n / plan.writersPerGroup)) (UInt64.ofNat n + 1)
  readers := (List.range plan.readers).map fun n => .start n layout arenaBase

/-- One atomic step of one thread; a thread that is gone does nothing. -/
def step (w : World) : Actor → World
  | .writer n =>
    match w.writers[n]? with
    | none => w
    | some wr =>
      let (wr, w) := w.stepWriter wr
      { w with writers := w.writers.set n wr }
  | .reader n =>
    match w.readers[n]? with
    | none => w
    | some r =>
      let (r, w) := w.stepReader r
      { w with readers := w.readers.set n r }

/-- The threads take their steps in the order of the schedule. -/
def run (w : World) (schedule : List Actor) : World := schedule.foldl step w

def isOver (w : World) : Bool :=
  w.writers.all (fun wr => wr.phase = .gone) && w.readers.all (fun r => r.phase = .gone)

def inspectOrder (w : World) (tally : Tally) (id : GroupId) : Tally :=
  match w.store.snapshot id with
  | .ok snap => tally.expect snap.index.isAscending
  | .error _ => tally

def report (w : World) (collector : Collector) : Report where
  tally := w.groups.foldl w.inspectOrder w.tally
  finalSizes := w.store.sizes
  reclamation := (w.store.quiesce collector false).reclaimer.counts

end World

namespace Workload

def world (plan : Workload) : Except SetupFailure World :=
  match plan.validate with
  | .error e => .error (.refused e)
  | .ok () =>
    match Store.init plan.config with
    | .error e => .error (.refused e)
    | .ok store =>
      match plan.layout with
      | .error o => .error (.overflow o)
      | .ok layout => .ok (.initial plan layout store)

/-- One thread after the other, first all writers; each reader then makes a single pass. -/
def inTurn (plan : Workload) : List Actor :=
  (List.range (plan.groups * plan.writersPerGroup)).flatMap (fun n =>
    List.replicate (plan.opsPerWriter.toNat + 2) (.writer n)) ++
  (List.range plan.readers).flatMap fun n =>
    List.replicate (6 * plan.groups + 1) (.reader n)

def run (plan : Workload) : Except SetupFailure Report :=
  plan.world.map fun w => (w.run plan.inTurn).report .usual

end Workload

end SnapshotStore
