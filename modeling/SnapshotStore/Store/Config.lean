import SnapshotStore.Data.Word
import SnapshotStore.Error

namespace SnapshotStore

def groupLimit : Nat := 4

structure Config where
  maxGroups : Nat := groupLimit
  /-- The longest payload that a write may bring. -/
  maxEntryLen : Nat := maxWord
  /-- Hand retired data to the collector at every write and not in batches. -/
  eagerReclaim : Bool := false
  deriving DecidableEq, Repr

namespace Config

def validate (c : Config) : Except StoreError Unit :=
  if c.maxGroups = 0 ∨ groupLimit < c.maxGroups then
    .error (.config (.groupLimit groupLimit c.maxGroups))
  else
    .ok ()

def outline (c : Config) : Outline :=
  .record "Config" [("max_groups", .nat c.maxGroups), ("max_entry_len", .nat c.maxEntryLen),
    ("eager_reclaim", .flag c.eagerReclaim)]

theorem validate_eq_ok {c : Config} :
    c.validate = .ok () ↔ 1 ≤ c.maxGroups ∧ c.maxGroups ≤ groupLimit := by
  unfold validate
  split <;> simp <;> omega

end Config

end SnapshotStore
