import Mathlib.Logic.Function.Basic
import SnapshotStore.Reclamation

namespace SnapshotStore.Counting

/-- A thread of control at the point before its next atomic step. Writers retire, the collector
runs the destructors that they leave behind, and anyone may take stock of the four counters. -/
inductive Task where
  | idle
  | retireIndex (entry : Bool)
  | retireEntry
  | defer (entry : Bool)
  | destroyIndex (entry : Bool)
  | destroyEntry
  | loadReclaimedIndexes
  | loadReclaimedEntries (reclaimedIndexes : UInt64)
  | loadRetiredIndexes (reclaimedIndexes reclaimedEntries : UInt64)
  | loadRetiredEntries (reclaimedIndexes reclaimedEntries retiredIndexes : UInt64)
  | answered (r : Reclamation)
  | ended
  deriving DecidableEq, Repr

/-- Threads are numbered; `deferred` holds a destructor for each retirement that has got so far. -/
structure State where
  counts : Reclamation
  tasks : Nat → Task
  deferred : List Bool

def initial : State := ⟨{}, fun _ => .idle, []⟩

inductive Move where
  | retire (thread : Nat) (entry : Bool)
  | takeStock (thread : Nat)
  /-- The collector takes up the deferred destructor at a position. -/
  | destroy (thread : Nat) (pos : Nat)
  | advance (thread : Nat)
  deriving DecidableEq, Repr

def State.become (s : State) (thread : Nat) (task : Task) : State :=
  { s with tasks := Function.update s.tasks thread task }

def State.count (s : State) (f : Reclamation → Reclamation) : State :=
  { s with counts := f s.counts }

def State.advance (s : State) (thread : Nat) : State :=
  match s.tasks thread with
  | .retireIndex entry =>
    (s.count fun r => { r with retiredIndexes := r.retiredIndexes + 1 }).become thread
      (if entry then .retireEntry else .defer false)
  | .retireEntry =>
    (s.count fun r => { r with retiredEntries := r.retiredEntries + 1 }).become thread
      (.defer true)
  | .defer entry => { s.become thread .ended with deferred := s.deferred ++ [entry] }
  | .destroyIndex entry =>
    (s.count fun r => { r with reclaimedIndexes := r.reclaimedIndexes + 1 }).become thread
      (if entry then .destroyEntry else .ended)
  | .destroyEntry =>
    (s.count fun r => { r with reclaimedEntries := r.reclaimedEntries + 1 }).become thread .ended
  | .loadReclaimedIndexes => s.become thread (.loadReclaimedEntries s.counts.reclaimedIndexes)
  | .loadReclaimedEntries ri =>
    s.become thread (.loadRetiredIndexes ri s.counts.reclaimedEntries)
  | .loadRetiredIndexes ri re =>
    s.become thread (.loadRetiredEntries ri re s.counts.retiredIndexes)
  | .loadRetiredEntries ri re xi =>
    s.become thread (.answered ⟨xi, s.counts.retiredEntries, ri, re⟩)
  | .idle | .answered _ | .ended => s

/-- A thread number is used for one task only; a move that does not apply changes nothing. -/
def State.step (s : State) : Move → State
  | .retire thread entry =>
    if s.tasks thread = .idle then s.become thread (.retireIndex entry) else s
  | .takeStock thread =>
    if s.tasks thread = .idle then s.become thread .loadReclaimedIndexes else s
  | .destroy thread pos =>
    if s.tasks thread = .idle then
      match s.deferred[pos]? with
      | some entry =>
        { s.become thread (.destroyIndex entry) with deferred := s.deferred.eraseIdx pos }
      | none => s
    else s
  | .advance thread => s.advance thread

def State.run (s : State) (moves : List Move) : State := moves.foldl State.step s

end SnapshotStore.Counting
