import SnapshotStore.Payload
import SnapshotStore.Store.Config
import SnapshotStore.Reclamation

namespace SnapshotStore

/-- What a stress run does: writers that put and remove entries under keys drawn at random, and
readers that check all they see. -/
structure Workload where
  groups : Nat := 2
  writersPerGroup : Nat := 2
  readers : Nat := 4
  /-- Keys are drawn from the numbers below this. -/
  keys : UInt64 := 64
  opsPerWriter : UInt64 := 10000
  /-- Each operation of a writer whose number is a multiple of this is a removal; none if zero. -/
  removeEvery : UInt64 := 5
  payloadLen : Nat := 64
  eagerReclaim : Bool := false
  deriving DecidableEq, Repr

/-- Memory that a run sets up: a window of `slotSize` bytes for each reader. -/
structure Layout where
  slotSize : Nat
  arenaSize : Nat
  writers : Nat
  deriving DecidableEq, Repr

namespace Workload

def outline (w : Workload) : Outline :=
  .record "StressConfig" [("groups", .nat w.groups), ("writers_per_group", .nat w.writersPerGroup),
    ("readers", .nat w.readers), ("keys", .word w.keys), ("ops_per_writer", .word w.opsPerWriter),
    ("remove_every", .word w.removeEvery), ("payload_len", .nat w.payloadLen),
    ("eager_reclaim", .flag w.eagerReclaim)]

def validate (w : Workload) : Except StoreError Unit :=
  if w.groups = 0 ∨ groupLimit < w.groups then
    .error (.config (.workloadGroups groupLimit w.groups))
  else if w.keys = 0 ∨ w.payloadLen < Payload.overhead then
    .error (.config (.workloadTooSmall Payload.overhead))
  else
    .ok ()

/-- A window holds one payload or the list of all keys. -/
def layout (w : Workload) : Except Overflow Layout := do
  let list ← Word.mul w.keys.toNat keySize
  let slotSize := max w.payloadLen list
  let total ← Word.mul slotSize (max w.readers 1)
  let arenaSize ← Word.capacity total
  let writers ← Word.mul w.groups w.writersPerGroup
  pure { slotSize, arenaSize, writers }

def config (w : Workload) : Config :=
  { maxGroups := w.groups, eagerReclaim := w.eagerReclaim }

end Workload

/-- What the writers and readers of a run have done and found so far. -/
structure Tally where
  puts : UInt64 := 0
  removes : UInt64 := 0
  gets : UInt64 := 0
  reads : UInt64 := 0
  lists : UInt64 := 0
  scans : UInt64 := 0
  violations : UInt64 := 0
  deriving DecidableEq, Repr

namespace Tally

def put (t : Tally) : Tally := { t with puts := t.puts + 1 }

def remove (t : Tally) : Tally := { t with removes := t.removes + 1 }

def get (t : Tally) : Tally := { t with gets := t.gets + 1 }

def read (t : Tally) : Tally := { t with reads := t.reads + 1 }

def list (t : Tally) : Tally := { t with lists := t.lists + 1 }

def scan (t : Tally) : Tally := { t with scans := t.scans + 1 }

/-- Count a violation unless `sound`. -/
def expect (t : Tally) (sound : Bool) : Tally :=
  if sound then t else { t with violations := t.violations + 1 }

end Tally

structure Report where
  tally : Tally
  finalSizes : List Nat
  reclamation : Reclamation
  deriving DecidableEq, Repr

def Report.isClean (r : Report) : Bool := r.tally.violations = 0

end SnapshotStore
