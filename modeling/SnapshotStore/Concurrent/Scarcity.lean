import SnapshotStore.Concurrent.Publication

namespace SnapshotStore.Publication

namespace Machine

variable (m : Machine)

/-- A writer is about to make an index; a removal that finds nothing makes none. -/
def needsMemory (thread : Nat) : Bool :=
  match (m.threads thread).phase with
  | .computing op _ base => (op.apply (m.contents base)).1.isSome
  | _ => false

/-- Give back the lock of a group without an answer: the last write that took it did not happen. -/
def release (group : Nat) : Machine :=
  { m with
    holder := Function.update m.holder group none
    chronicle := { m.chronicle with
      entered := Function.update m.chronicle.entered group (m.chronicle.entered group).dropLast } }

end Machine

/-- A machine whose memory may run out. The write of a thread in `refused` got no room for its
index; the thread still has to let go of its guard and then of the lock. -/
structure Scarce where
  machine : Machine
  refused : Nat → Bool

inductive Turn where
  | move (move : Move)
  /-- There is no memory for the index that a thread is about to make. -/
  | refuse (thread : Nat)
  deriving DecidableEq, Repr

namespace Scarce

def initial (groups : Nat) : Scarce := ⟨Publication.initial groups, fun _ => false⟩

/-- The next atomic step of a thread whose write was refused: without its guard it stands where it
stood before it took one. -/
def retreat (s : Scarce) (thread : Nat) : Scarce :=
  match (s.machine.threads thread).phase with
  | .computing op p _ =>
    { s with machine := (s.machine.become thread (.guarding op)).unpin p }
  | .guarding _ =>
    { machine := (s.machine.become thread .idle).release (s.machine.threads thread).group
      refused := Function.update s.refused thread false }
  | _ => s

def step (s : Scarce) : Turn → Scarce
  | .refuse thread =>
    if s.machine.needsMemory thread then
      { s with refused := Function.update s.refused thread true }
    else s
  | .move (.advance thread) =>
    if s.refused thread then s.retreat thread
    else { s with machine := s.machine.advance thread }
  | .move move => { s with machine := s.machine.step move }

def run (s : Scarce) (turns : List Turn) : Scarce := turns.foldl step s

/-- Where memory is never refused this is the machine itself. -/
theorem run_map_move (groups : Nat) (moves : List Move) :
    (initial groups).run (moves.map .move) =
      ⟨(Publication.initial groups).run moves, fun _ => false⟩ := by
  have hrun : ∀ m : Machine, run ⟨m, fun _ => false⟩ (moves.map .move) =
      ⟨m.run moves, fun _ => false⟩ := by
    induction moves with
    | nil => exact fun _ => rfl
    | cons move moves ih =>
      intro m
      have hstep : step ⟨m, fun _ => false⟩ (.move move) = ⟨m.step move, fun _ => false⟩ := by
        cases move <;> rfl
      calc run ⟨m, fun _ => false⟩ ((move :: moves).map .move)
          = run (step ⟨m, fun _ => false⟩ (.move move)) (moves.map .move) := rfl
        _ = ⟨m.run (move :: moves), fun _ => false⟩ := by rw [hstep, ih]; rfl
  exact hrun _

end Scarce

def afterTurns (groups : Nat) (turns : List Turn) : Machine :=
  ((Scarce.initial groups).run turns).machine

end SnapshotStore.Publication
