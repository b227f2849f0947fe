import Mathlib.Data.Finmap
import SnapshotStore.Proofs.Index.Bulk
import SnapshotStore.Proofs.Index.KeySet

namespace SnapshotStore

/-- A finite map of entries, whatever groups they belong to. -/
abbrev EntryMap := Finmap fun _ : Key => Entry

/-- A way to derive an index from another. -/
inductive Index.Change where
  | upsert (e : Entry)
  | remove (key : Key)

/-- A way to come by a first index. -/
inductive Index.Origin where
  | new
  | entries (es : List Entry)

namespace EntryMap

variable (m : EntryMap)

def bind (e : Entry) : EntryMap := m.insert e.key e

def ofEntries (es : List Entry) : EntryMap := es.foldl bind ∅

def change : Index.Change → EntryMap
  | .upsert e => m.bind e
  | .remove key => m.erase key

theorem lookup_bind (e : Entry) (key : Key) :
    (m.bind e).lookup key = if key = e.key then some e else m.lookup key := by
  by_cases hkey : key = e.key
  · subst hkey
    rw [if_pos rfl, bind, Finmap.lookup_insert]
  · rw [if_neg hkey, bind, Finmap.lookup_insert_of_ne m hkey]

theorem lookup_erase (key other : Key) :
    (m.erase key).lookup other = if other = key then none else m.lookup other := by
  by_cases hkey : other = key
  · subst hkey
    rw [if_pos rfl, Finmap.lookup_erase]
  · rw [if_neg hkey, Finmap.lookup_erase_ne hkey]

theorem lookup_ofEntries (es : List Entry) (key : Key) :
    (ofEntries es).lookup key = es.reverse.find? fun e => e.key = key := by
  induction es using List.reverseRecOn with
  | nil => rfl
  | append_singleton es e ih =>
    rw [ofEntries, List.foldl_append, List.foldl_cons, List.foldl_nil, lookup_bind, ← ofEntries, ih,
      List.reverse_append, List.reverse_singleton, List.singleton_append, List.find?_cons]
    by_cases hkey : key = e.key
    · simp [hkey]
    · simp [hkey, Ne.symm hkey]

end EntryMap

namespace Index.Origin

def index : Origin → Index
  | new => .empty
  | entries es => .ofEntries es

def map : Origin → EntryMap
  | new => ∅
  | entries es => .ofEntries es

end Index.Origin

namespace Index

variable {ix : Index} {m : EntryMap}

/-- A removal of a key that is not there leaves the index as it is. -/
def change (ix : Index) : Change → Index
  | .upsert e => (ix.upsert e).1
  | .remove key => ((ix.remove key).map Prod.fst).getD ix

/-- An index and a map that answer alike. -/
structure Keeps (ix : Index) (m : EntryMap) : Prop where
  ascending : ix.Ascending
  get? : ∀ key, ix.get? key = m.lookup key

/-- What an index shows of the map that it stands for. -/
structure Simulates (ix : Index) (m : EntryMap) : Prop where
  isAscending : ix.isAscending = true
  /-- The entries are the bindings of the map in the order of their keys. -/
  toList : ix.toList = (m.keys.sort (· ≤ ·)).filterMap m.lookup
  replaced : ∀ e, (ix.upsert e).2 = m.lookup e.key
  size_upsert : ∀ e, (ix.upsert e).1.size = if e.key ∈ m then ix.size else ix.size + 1
  absent : ∀ key, ix.remove key = none ↔ key ∉ m
  removed : ∀ key next e, ix.remove key = some (next, e) →
    m.lookup key = some e ∧ next.size + 1 = ix.size

theorem keeps_origin (o : Origin) : o.index.Keeps o.map := by
  cases o with
  | new => exact ⟨ascending_empty, fun key => get?_eq_find? ascending_empty key⟩
  | entries es =>
    exact ⟨ascending_ofEntries es, fun key =>
      (get?_ofEntries es key).trans (EntryMap.lookup_ofEntries es key).symm⟩

namespace Keeps

variable (h : ix.Keeps m)

include h

theorem change (c : Change) : (ix.change c).Keeps (m.change c) := by
  cases c with
  | upsert e =>
    refine ⟨ascending_upsert h.ascending e, fun key => ?_⟩
    rw [EntryMap.change, m.lookup_bind, ← h.get?]
    exact get?_upsert h.ascending e key
  | remove key =>
    cases hr : ix.remove key with
    | none =>
      have hsame : ix.change (.remove key) = ix := by simp [Index.change, hr]
      rw [hsame]
      refine ⟨h.ascending, fun other => ?_⟩
      rw [EntryMap.change, m.lookup_erase]
      split_ifs with hkey
      · rw [hkey]
        exact (remove_eq_none_iff h.ascending).1 hr
      · exact h.get? other
    | some r =>
      obtain ⟨next, e⟩ := r
      have hnext : ix.change (.remove key) = next := by simp [Index.change, hr]
      rw [hnext]
      refine ⟨ascending_remove h.ascending hr, fun other => ?_⟩
      rw [EntryMap.change, m.lookup_erase, get?_remove h.ascending hr, h.get?]

theorem eq {jx : Index} (hj : jx.Keeps m) : ix = jx :=
  eq_of_get?_eq h.ascending hj.ascending fun key => (h.get? key).trans (hj.get? key).symm

theorem run (cs : List Change) : (cs.foldl Index.change ix).Keeps (cs.foldl EntryMap.change m) := by
  induction cs generalizing ix m with
  | nil => exact h
  | cons c cs ih => exact ih (h.change c)

theorem keySet_eq : ix.keySet = m.keys := by
  ext key
  rw [mem_keySet_iff_get? h.ascending, h.get?, Finmap.lookup_isSome, Finmap.mem_keys]

theorem toList_eq : ix.toList = (m.keys.sort (· ≤ ·)).filterMap m.lookup := by
  have hget : ix.get? = fun key => m.lookup key := funext h.get?
  rw [toList_eq_filterMap h.ascending, hget, keys_eq_sort h.ascending, h.keySet_eq]

theorem simulates : ix.Simulates m where
  isAscending := (isAscending_iff ix).2 h.ascending
  toList := h.toList_eq
  replaced e := (upsert_snd h.ascending e).trans (h.get? e.key)
  size_upsert e := by
    rw [← card_keySet (ascending_upsert h.ascending e), keySet_upsert h.ascending,
      ← card_keySet h.ascending, h.keySet_eq]
    split_ifs with hmem
    · exact Finset.card_insert_of_mem (Finmap.mem_keys.2 hmem)
    · exact Finset.card_insert_of_notMem (mt Finmap.mem_keys.1 hmem)
  absent key := by
    rw [remove_eq_none_iff_notMem h.ascending, h.keySet_eq, Finmap.mem_keys]
  removed key next e hr := by
    have hget := get?_of_remove h.ascending hr
    exact ⟨(h.get? key).symm.trans hget, size_remove h.ascending hr⟩

end Keeps

/-- An index simulates a map, however it came about. -/
theorem run_simulates (o : Origin) (cs : List Change) :
    (cs.foldl change o.index).Simulates (cs.foldl EntryMap.change o.map) :=
  ((keeps_origin o).run cs).simulates

end Index

end SnapshotStore
