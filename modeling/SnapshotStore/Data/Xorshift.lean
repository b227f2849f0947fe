namespace SnapshotStore

/-- A 64-bit xorshift generator. Its state is meant to stay nonzero. -/
structure Xorshift where
  state : UInt64
  deriving DecidableEq, Repr

namespace Xorshift

/-- Spread the seed over the word and make the state odd, so that it is not zero. -/
def seeded (seed : UInt64) : Xorshift :=
  ⟨(seed * 0x9E3779B97F4A7C15) ||| 1⟩

def shiftLeft (k x : UInt64) : UInt64 := x ^^^ (x <<< k)

def shiftRight (k x : UInt64) : UInt64 := x ^^^ (x >>> k)

def advance (x : UInt64) : UInt64 :=
  shiftLeft 17 (shiftRight 7 (shiftLeft 13 x))

def draw (g : Xorshift) : UInt64 × Xorshift :=
  (advance g.state, ⟨advance g.state⟩)

def skip : Nat → Xorshift → Xorshift
  | 0, g => g
  | n + 1, g => skip n g.draw.2

end Xorshift

end SnapshotStore
