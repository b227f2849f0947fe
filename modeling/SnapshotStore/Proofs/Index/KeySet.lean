import Mathlib.Data.Finset.Basic
import Mathlib.Data.Finset.Card
import Mathlib.Data.Finset.Sort
import SnapshotStore.Proofs.Index.Update

namespace SnapshotStore.Index

variable {ix : Index} {key : Key}

def keySet (ix : Index) : Finset Key := ix.keys.toFinset

theorem mem_keySet : key ∈ ix.keySet ↔ ∃ e ∈ ix.toList, e.key = key := by
  rw [keySet, List.mem_toFinset, keys, List.mem_map]

theorem keySet_empty : empty.keySet = ∅ := rfl

theorem card_keySet (h : ix.Ascending) : ix.keySet.card = ix.size := by
  have hnodup : ix.keys.Nodup := h.imp fun hlt => UInt64.ne_of_lt hlt
  rw [keySet, List.toFinset_card_of_nodup hnodup, keys, List.length_map, toList, Array.length_toList]

theorem keys_eq_sort (h : ix.Ascending) : ix.keys = ix.keySet.sort (· ≤ ·) := by
  have hnodup : ix.keys.Nodup := h.imp fun hlt => UInt64.ne_of_lt hlt
  exact ((List.toFinset_sort _ hnodup).2 (h.imp UInt64.le_of_lt)).symm

theorem toList_eq_filterMap (h : ix.Ascending) : ix.toList = ix.keys.filterMap ix.get? := by
  have hget : ∀ e ∈ ix.toList, ix.get? e.key = some e := fun e he =>
    (get?_eq_some_iff h).2 ⟨he, rfl⟩
  calc ix.toList = ix.toList.filterMap some := List.filterMap_some.symm
    _ = ix.toList.filterMap fun e => ix.get? e.key :=
        List.filterMap_congr fun e he => (hget e he).symm
    _ = ix.keys.filterMap ix.get? := by rw [keys, List.filterMap_map]; rfl

theorem keySet_upsert (h : ix.Ascending) (e : Entry) :
    (ix.upsert e).1.keySet = insert e.key ix.keySet := by
  ext key
  simp only [Finset.mem_insert, mem_keySet, mem_upsert h]
  constructor
  · rintro ⟨f, rfl | ⟨hf, -⟩, rfl⟩
    · exact .inl rfl
    · exact .inr ⟨f, hf, rfl⟩
  · rintro (rfl | ⟨f, hf, rfl⟩)
    · exact ⟨e, .inl rfl, rfl⟩
    · by_cases hkey : f.key = e.key
      · exact ⟨e, .inl rfl, hkey.symm⟩
      · exact ⟨f, .inr ⟨hf, hkey⟩, rfl⟩

theorem keySet_remove (h : ix.Ascending) {next : Index} {e : Entry}
    (hr : ix.remove key = some (next, e)) : next.keySet = ix.keySet.erase key := by
  ext other
  simp only [Finset.mem_erase, mem_keySet, mem_remove h hr]
  constructor
  · rintro ⟨f, ⟨hf, hne⟩, rfl⟩
    exact ⟨hne, f, hf, rfl⟩
  · rintro ⟨hne, f, hf, rfl⟩
    exact ⟨f, ⟨hf, hne⟩, rfl⟩

theorem mem_keySet_iff_get? (h : ix.Ascending) : key ∈ ix.keySet ↔ (ix.get? key).isSome := by
  rw [mem_keySet, Option.isSome_iff_exists]
  exact exists_congr fun e => (get?_eq_some_iff h).symm

theorem remove_eq_none_iff_notMem (h : ix.Ascending) : ix.remove key = none ↔ key ∉ ix.keySet := by
  rw [remove_eq_none_iff h, get?_eq_none_iff h, mem_keySet]
  simp

end SnapshotStore.Index
