import SnapshotStore.Proofs.Index.Bindings

namespace SnapshotStore.Index

variable {ix next : Index} {e old : Entry} {key : Key}

theorem get?_eq_ite_of_get? {value : Option Entry}
    (hget : ∀ other, next.get? other = if other = key then value else ix.get? other) (other : Key) :
    ix.get? other = if other = key then ix.get? key else next.get? other := by
  rw [hget]
  split_ifs with hother
  · rw [hother]
  · rfl

theorem remove_of_upsert (h : ix.Ascending) (hu : ix.upsert e = (next, none)) :
    next.remove e.key = some (ix, e) := by
  obtain ⟨hnext, hnone, hget⟩ := (upsert_eq_iff h).1 hu
  have hback := get?_eq_ite_of_get? hget
  rw [← hnone] at hback
  exact (remove_eq_some_iff hnext).2 ⟨h, by rw [hget, if_pos rfl], hback⟩

theorem upsert_of_upsert (h : ix.Ascending) (hu : ix.upsert e = (next, some old)) :
    next.upsert old = (ix, some e) := by
  obtain ⟨hnext, hsome, hget⟩ := (upsert_eq_iff h).1 hu
  have hkey : old.key = e.key := ((get?_eq_some_iff h).1 hsome.symm).2
  have hback := get?_eq_ite_of_get? hget
  rw [← hsome, ← hkey] at hback
  exact (upsert_eq_iff hnext).2 ⟨h, by rw [hget, if_pos hkey], hback⟩

theorem upsert_of_remove (h : ix.Ascending) (hr : ix.remove key = some (next, old)) :
    next.upsert old = (ix, none) := by
  obtain ⟨hnext, hsome, hget⟩ := (remove_eq_some_iff h).1 hr
  have hkey : old.key = key := ((get?_eq_some_iff h).1 hsome).2
  have hback := get?_eq_ite_of_get? hget
  rw [hsome, ← hkey] at hback
  exact (upsert_eq_iff hnext).2 ⟨h, by rw [hget, if_pos hkey], hback⟩

/-- Each write can be taken back by one more, which gives back what the first has put in or taken
out and leaves the very index that was there before. -/
structure Undoable (ix : Index) : Prop where
  inserted : ∀ e next, ix.upsert e = (next, none) → next.remove e.key = some (ix, e)
  replaced : ∀ e next old, ix.upsert e = (next, some old) → next.upsert old = (ix, some e)
  removed : ∀ key next old, ix.remove key = some (next, old) → next.upsert old = (ix, none)

theorem Ascending.undoable (h : ix.Ascending) : ix.Undoable where
  inserted _ _ := remove_of_upsert h
  replaced _ _ _ := upsert_of_upsert h
  removed _ _ _ := upsert_of_remove h

/-- What the lookups of a key have to come to, told by scans of the entries. -/
structure Finds (ix : Index) (key : Key) : Prop where
  found : ∀ p, (∃ hp, ix.search key = .found ⟨p, hp⟩) ↔
    ∃ hp : p < ix.size, ix.entries[p].key = key
  vacant : ∀ p, (∃ hp, ix.search key = .vacant ⟨p, hp⟩) ↔ p ≤ ix.size ∧
    (∀ f ∈ ix.toList.take p, f.key < key) ∧ ∀ f ∈ ix.toList.drop p, key < f.key
  get? : ix.get? key = ix.toList.find? fun e => e.key = key
  /-- No other entry has the key. -/
  only : ∀ e, ix.get? key = some e ↔ e ∈ ix.toList ∧ e.key = key
  /-- The cut that makes the tail is one that the halving has come to, within the entries. -/
  cut : (ix.search key).position = ix.rank key ∧ ix.rank key ≤ ix.size
  tail : ix.tail key = ix.toList.filter fun e => key ≤ e.key

theorem Ascending.finds (h : ix.Ascending) (key : Key) : ix.Finds key where
  found p := exists_congr fun hp => search_eq_found_iff h hp
  vacant p := by
    rw [← exists_prop, ← Nat.lt_succ_iff]
    exact exists_congr fun _ => search_eq_vacant_iff h
  get? := get?_eq_find? h key
  only _ := get?_eq_some_iff h
  cut := ⟨position_search h key, (rank_spec h key).1⟩
  tail := tail_eq_filter h key

theorem ascending_run (o : Origin) (cs : List Change) : (cs.foldl change o.index).Ascending :=
  ((keeps_origin o).run cs).ascending

/-- However an index came about, what was done to it last can be undone, and no other index of any
history answers all lookups as it does. -/
theorem run_undoable (o : Origin) (cs : List Change) :
    (cs.foldl change o.index).Undoable ∧
      ∀ (o' : Origin) (cs' : List Change),
        (∀ key, (cs.foldl change o.index).get? key = (cs'.foldl change o'.index).get? key) ↔
          cs.foldl change o.index = cs'.foldl change o'.index := by
  have h := ascending_run o cs
  refine ⟨h.undoable, fun o' cs' => ⟨eq_of_get?_eq h (ascending_run o' cs'), fun heq key => ?_⟩⟩
  rw [heq]

/-- However an index came about, the halving search finds in it what a scan finds. -/
theorem run_finds (o : Origin) (cs : List Change) (key : Key) :
    (cs.foldl change o.index).Finds key :=
  (ascending_run o cs).finds key

end SnapshotStore.Index
