import Mathlib.Data.Finmap
import SnapshotStore.Proofs.Index.KeySet

namespace SnapshotStore

/-- What a group means to its users: payloads under keys. -/
abbrev PayloadMap := Finmap fun _ : Key => Bytes

namespace PayloadMap

variable (m : PayloadMap) (id : GroupId)

def ascendingKeys : List Key := m.keys.sort (· ≤ ·)

def entryAt (key : Key) : Option Entry := (m.lookup key).map (Entry.mk id key)

def entries : List Entry := m.ascendingKeys.filterMap (m.entryAt id)

theorem entryAt_insert (key other : Key) (payload : Bytes) :
    PayloadMap.entryAt (m.insert key payload) id other =
      if other = key then some ⟨id, key, payload⟩ else m.entryAt id other := by
  by_cases h : other = key
  · subst h
    simp [entryAt]
  · simp [entryAt, h, Finmap.lookup_insert_of_ne m h]

theorem entryAt_erase (key other : Key) :
    PayloadMap.entryAt (m.erase key) id other =
      if other = key then none else m.entryAt id other := by
  by_cases h : other = key
  · subst h
    simp [entryAt]
  · simp [entryAt, h, Finmap.lookup_erase_ne h]

theorem entryAt_isSome_iff (key : Key) : (m.entryAt id key).isSome ↔ key ∈ m.keys := by
  rw [Finmap.mem_keys, ← Finmap.lookup_isSome, entryAt, Option.isSome_map]

end PayloadMap

namespace Index

variable {ix : Index} {m : PayloadMap} {id : GroupId}

/-- An index stands for a map: it is ascending, and a lookup finds what the map binds. -/
structure Represents (ix : Index) (id : GroupId) (m : PayloadMap) : Prop where
  ascending : ix.Ascending
  get? : ∀ key, ix.get? key = m.entryAt id key

theorem represents_empty : empty.Represents id ∅ where
  ascending := ascending_empty
  get? := by
    intro key
    rw [(get?_eq_none_iff ascending_empty).2 (by simp [toList, empty])]
    simp [PayloadMap.entryAt]

namespace Represents

variable (h : ix.Represents id m)

include h

theorem keySet_eq : ix.keySet = m.keys := by
  ext key
  rw [mem_keySet_iff_get? h.ascending, h.get?, PayloadMap.entryAt_isSome_iff]

theorem keys_eq : ix.keys = m.ascendingKeys := by
  rw [keys_eq_sort h.ascending, h.keySet_eq, PayloadMap.ascendingKeys]

theorem size_eq : ix.size = m.keys.card := by
  rw [← card_keySet h.ascending, h.keySet_eq]

theorem toList_eq : ix.toList = m.entries id := by
  have hget : ix.get? = m.entryAt id := funext h.get?
  rw [toList_eq_filterMap h.ascending, hget, h.keys_eq, PayloadMap.entries]

theorem upsert (key : Key) (payload : Bytes) :
    (ix.upsert ⟨id, key, payload⟩).1.Represents id (m.insert key payload) where
  ascending := ascending_upsert h.ascending _
  get? := by
    intro other
    rw [get?_upsert h.ascending, h.get?, PayloadMap.entryAt_insert]

theorem upsert_isSome (key : Key) (payload : Bytes) :
    (ix.upsert ⟨id, key, payload⟩).2.isSome ↔ key ∈ m := by
  rw [upsert_snd h.ascending, h.get?, PayloadMap.entryAt_isSome_iff, Finmap.mem_keys]

theorem remove (key : Key) :
    (m.entryAt id key = none ∧ ix.remove key = none) ∨
    ∃ next e, m.entryAt id key = some e ∧ ix.remove key = some (next, e) ∧
      next.Represents id (m.erase key) := by
  cases hr : ix.remove key with
  | none => exact .inl ⟨(h.get? key).symm.trans ((remove_eq_none_iff h.ascending).1 hr), rfl⟩
  | some r =>
    obtain ⟨next, e⟩ := r
    refine .inr ⟨next, e, ?_, rfl, ascending_remove h.ascending hr, ?_⟩
    · rw [← h.get?, get?_of_remove h.ascending hr]
    · intro other
      rw [get?_remove h.ascending hr, h.get?, PayloadMap.entryAt_erase]

end Represents

end Index

end SnapshotStore
