namespace SnapshotStore

/-- Sizes, lengths and offsets are machine words: they stay below this bound. -/
def wordSize : Nat := 0x10000000000000000

/-- The largest machine word, which stands for "no limit" and for a length that does not fit. -/
def maxWord : Nat := wordSize - 1

def maxBuffer : Nat := 0x7FFFFFFFFFFFFFFF

/-- Why an arithmetic step on words has no result. -/
inductive Overflow where
  | subtract
  | add
  | multiply
  | capacity
  deriving DecidableEq, Repr

namespace Overflow

def message : Overflow → String
  | .subtract => "attempt to subtract with overflow"
  | .add => "attempt to add with overflow"
  | .multiply => "attempt to multiply with overflow"
  | .capacity => "capacity overflow"

end Overflow

namespace Word

def add (a b : Nat) : Except Overflow Nat :=
  if a + b < wordSize then .ok (a + b) else .error .add

def mul (a b : Nat) : Except Overflow Nat :=
  if a * b < wordSize then .ok (a * b) else .error .multiply

def sub (a b : Nat) : Except Overflow Nat :=
  if b ≤ a then .ok (a - b) else .error .subtract

def capacity (n : Nat) : Except Overflow Nat :=
  if n ≤ maxBuffer then .ok n else .error .capacity

theorem add_eq_ok {a b c : Nat} : add a b = .ok c ↔ a + b < wordSize ∧ a + b = c := by
  unfold add
  split <;> simp [*]

theorem mul_eq_ok {a b c : Nat} : mul a b = .ok c ↔ a * b < wordSize ∧ a * b = c := by
  unfold mul
  split <;> simp [*]

theorem sub_eq_ok {a b c : Nat} : sub a b = .ok c ↔ b ≤ a ∧ a - b = c := by
  unfold sub
  split <;> simp [*]

end Word

end SnapshotStore
