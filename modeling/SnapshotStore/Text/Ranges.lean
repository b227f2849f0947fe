namespace SnapshotStore.Text

/-- A set of code points as closed ranges, ascending and apart. -/
abbrev Ranges := List (Nat × Nat)

namespace Ranges

def contains (rs : Ranges) (n : Nat) : Bool := rs.any fun r => r.1 ≤ n && n ≤ r.2

end Ranges

end SnapshotStore.Text
