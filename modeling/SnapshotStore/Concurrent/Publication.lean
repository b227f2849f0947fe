import Mathlib.Logic.Function.Basic
import SnapshotStore.Index.Update

namespace SnapshotStore.Publication

/-- The identity of an index that is or was published; identities are never used twice. -/
abbrev Object := Nat

/-- The identity of a guard that keeps what its holder may see from being destroyed. -/
abbrev Pin := Nat

inductive Write where
  | put (entry : Entry)
  | remove (key : Key)
  deriving DecidableEq, Repr

inductive Outcome where
  | inserted
  | replaced
  | removed (entry : Entry)
  | notFound
  deriving DecidableEq, Repr

/-- The index that a write makes of another, if it makes one, and its answer. -/
def Write.apply (op : Write) (ix : Index) : Option Index × Outcome :=
  match op with
  | .put entry =>
    match ix.upsert entry with
    | (next, some _) => (some next, .replaced)
    | (next, none) => (some next, .inserted)
  | .remove key =>
    match ix.remove key with
    | some (next, entry) => (some next, .removed entry)
    | none => (none, .notFound)

/-- The point before the next atomic step. A writer goes down the list as far as `unlocking`, where
a write that changes nothing skips `built` and `swapped`; a reader goes from `pinning` to
`holding`, where it may stay and answer from the index it has loaded. -/
inductive Phase where
  | idle
  | locking (op : Write)
  | guarding (op : Write)
  | loading (op : Write) (pin : Pin)
  | computing (op : Write) (pin : Pin) (base : Object)
  | built (pin : Pin) (base : Object) (next : Index) (outcome : Outcome)
  | swapped (pin : Pin) (old : Object) (outcome : Outcome)
  | unguarding (pin : Pin) (outcome : Outcome)
  | unlocking (outcome : Outcome)
  | pinning
  | reading (pin : Pin)
  | holding (pin : Pin) (object : Object)
  deriving DecidableEq, Repr

structure Thread where
  group : Nat := 0
  phase : Phase := .idle
  deriving DecidableEq, Repr

/-- What has happened so far, for the sake of statements about runs. -/
structure Chronicle where
  /-- Indexes of a group in the order of their publication. -/
  published : Nat → List Object
  /-- Writes of a group in the order in which threads took its lock for them, without those that
  gave it back for want of memory. -/
  entered : Nat → List (Nat × Write)
  /-- Answers of these writes, as far as they have come to one. -/
  outcomes : Nat → List Outcome
  /-- What threads were answered when they gave the lock back. -/
  returned : Nat → List (Nat × Outcome)

/-- Groups, threads and their shared memory. Each group has its current index and a lock for its
writers; an index that was unlinked waits with the guards that could have seen it. -/
structure Machine where
  groups : Nat
  contents : Object → Index
  fresh : Object
  current : Nat → Object
  holder : Nat → Option Nat
  threads : Nat → Thread
  pins : List Pin
  freshPin : Pin
  pending : List (Object × List Pin)
  destroyed : List Object
  chronicle : Chronicle

def initial (groups : Nat) : Machine where
  groups := groups
  contents := fun _ => .empty
  fresh := groups
  current := id
  holder := fun _ => none
  threads := fun _ => {}
  pins := []
  freshPin := 0
  pending := []
  destroyed := []
  chronicle := ⟨fun g => [g], fun _ => [], fun _ => [], fun _ => []⟩

inductive Move where
  | write (thread group : Nat) (op : Write)
  | read (thread group : Nat)
  | advance (thread : Nat)
  /-- The collector destroys an object once no guard from before its retirement is left. -/
  | collect (object : Object)
  deriving DecidableEq, Repr

namespace Machine

variable (m : Machine)

def become (thread : Nat) (phase : Phase) : Machine :=
  { m with threads := Function.update m.threads thread { m.threads thread with phase } }

def pin : Machine :=
  { m with pins := m.freshPin :: m.pins, freshPin := m.freshPin + 1 }

def unpin (p : Pin) : Machine := { m with pins := m.pins.filter (· ≠ p) }

def swap (group : Nat) (next : Index) : Machine :=
  { m with
    contents := Function.update m.contents m.fresh next
    fresh := m.fresh + 1
    current := Function.update m.current group m.fresh
    chronicle := { m.chronicle with
      published := Function.update m.chronicle.published group
        (m.chronicle.published group ++ [m.fresh]) } }

def enter (thread group : Nat) (op : Write) : Machine :=
  { m with
    holder := Function.update m.holder group (some thread)
    chronicle := { m.chronicle with
      entered := Function.update m.chronicle.entered group
        (m.chronicle.entered group ++ [(thread, op)]) } }

def record (group : Nat) (outcome : Outcome) : Machine :=
  { m with chronicle := { m.chronicle with
      outcomes := Function.update m.chronicle.outcomes group
        (m.chronicle.outcomes group ++ [outcome]) } }

def leave (thread group : Nat) (outcome : Outcome) : Machine :=
  { m with
    holder := Function.update m.holder group none
    chronicle := { m.chronicle with
      returned := Function.update m.chronicle.returned group
        (m.chronicle.returned group ++ [(thread, outcome)]) } }

def retire (object : Object) : Machine :=
  { m with pending := m.pending ++ [(object, m.pins)] }

def advance (thread : Nat) : Machine :=
  let group := (m.threads thread).group
  match (m.threads thread).phase with
  | .idle => m
  | .locking op =>
    match m.holder group with
    | some _ => m
    | none => (m.become thread (.guarding op)).enter thread group op
  | .guarding op => (m.become thread (.loading op m.freshPin)).pin
  | .loading op p => m.become thread (.computing op p (m.current group))
  | .computing op p base =>
    match op.apply (m.contents base) with
    | (some next, outcome) => m.become thread (.built p base next outcome)
    | (none, outcome) => (m.become thread (.unguarding p outcome)).record group outcome
  | .built p _ next outcome =>
    ((m.become thread (.swapped p (m.current group) outcome)).swap group next).record group outcome
  | .swapped p old outcome => (m.become thread (.unguarding p outcome)).retire old
  | .unguarding p outcome => (m.become thread (.unlocking outcome)).unpin p
  | .unlocking outcome => (m.become thread .idle).leave thread group outcome
  | .pinning => (m.become thread (.reading m.freshPin)).pin
  | .reading p => m.become thread (.holding p (m.current group))
  | .holding p _ => (m.become thread .idle).unpin p

/-- Only an idle thread takes up something new; a move that does not apply changes nothing. -/
def step : Move → Machine
  | .write thread group op =>
    if (m.threads thread).phase = .idle ∧ group < m.groups then
      { m with threads := Function.update m.threads thread ⟨group, .locking op⟩ }
    else m
  | .read thread group =>
    if (m.threads thread).phase = .idle ∧ group < m.groups then
      { m with threads := Function.update m.threads thread ⟨group, .pinning⟩ }
    else m
  | .advance thread => m.advance thread
  | .collect object =>
    match m.pending.find? fun d => d.1 = object with
    | some (_, guards) =>
      if guards.all fun p => p ∉ m.pins then
        { m with
          pending := m.pending.filter fun d => d.1 ≠ object
          destroyed := object :: m.destroyed }
      else m
    | none => m

def run (moves : List Move) : Machine := moves.foldl step m

end Machine

end SnapshotStore.Publication
