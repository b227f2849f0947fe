import SnapshotStore.Proofs.Index.Bindings

namespace SnapshotStore.Index

def pushLatest (kept : Array Entry) (e : Entry) : Array Entry :=
  match kept.back? with
  | some last => if last.key = e.key then kept.pop.push e else kept.push e
  | none => kept.push e

def ofSorted (es : List Entry) : Index := ⟨es.foldl pushLatest #[]⟩

def IsLatest (es : List Entry) (e : Entry) : Prop :=
  ∃ before after, es = before ++ e :: after ∧ ∀ f ∈ after, f.key ≠ e.key

/-- An index in order that holds the keys of a list, each with the latest of its entries. -/
structure Gathers (ix : Index) (es : List Entry) : Prop where
  ascending : ix.Ascending
  keys : ∀ key, key ∈ ix.keys ↔ ∃ e ∈ es, e.key = key
  latest : ∀ e ∈ ix.toList, IsLatest es e

variable {ix : Index} {es : List Entry} {e : Entry}

theorem pushLatest_push (kept : Array Entry) (last e : Entry) :
    pushLatest (kept.push last) e =
      if last.key = e.key then kept.push e else (kept.push last).push e := by
  rw [pushLatest, Array.back?_push, Array.pop_push]

/-- One pass keeps the last of neighbours with one key. -/
theorem foldl_pushLatest (es : List Entry) (kept : Array Entry) (last : Entry) :
    (es.foldl pushLatest (kept.push last)).toList = kept.toList ++ keepLast (last :: es) := by
  induction es generalizing kept last with
  | nil => exact Array.toList_push
  | cons e es ih =>
    rw [List.foldl_cons, pushLatest_push, keepLast]
    split_ifs with hkey
    · exact ih kept e
    · rw [ih, Array.toList_push, List.append_assoc, List.singleton_append]

theorem ofSorted_eq (es : List Entry) : ofSorted es = ⟨(keepLast es).toArray⟩ := by
  cases es with
  | nil => rfl
  | cons e es => exact congrArg Index.mk (Array.toList_inj.1 (foldl_pushLatest es #[] e))

theorem isLatest_iff_find? :
    IsLatest es e ↔ es.reverse.find? (fun f => f.key = e.key) = some e := by
  rw [List.find?_eq_some_iff_append]
  simp only [decide_true, Bool.not_eq_true', decide_eq_false_iff_not, true_and]
  constructor
  · rintro ⟨before, after, rfl, hafter⟩
    refine ⟨after.reverse, before.reverse, by simp, fun f hf => hafter f (List.mem_reverse.1 hf)⟩
  · rintro ⟨after, before, hes, hafter⟩
    refine ⟨before.reverse, after.reverse, ?_, fun f hf => hafter f (List.mem_reverse.1 hf)⟩
    rw [← List.reverse_reverse es, hes, List.reverse_append, List.reverse_cons, List.append_assoc,
      List.singleton_append]

theorem gathers_iff_get? (h : ix.Ascending) :
    ix.Gathers es ↔ ∀ key, ix.get? key = es.reverse.find? fun e => e.key = key := by
  constructor
  · intro hes key
    cases hget : ix.get? key with
    | none =>
      refine (List.find?_eq_none.2 fun e he => ?_).symm
      rw [decide_eq_true_eq]
      intro hkey
      obtain ⟨f, hf, hfkey⟩ := List.mem_map.1 ((hes.keys key).2 ⟨e, List.mem_reverse.1 he, hkey⟩)
      exact (get?_eq_none_iff h).1 hget f hf hfkey
    | some e =>
      obtain ⟨he, rfl⟩ := (get?_eq_some_iff h).1 hget
      exact (isLatest_iff_find?.1 (hes.latest e he)).symm
  · intro hget
    have hlatest : ∀ e ∈ ix.toList, es.reverse.find? (fun f => f.key = e.key) = some e :=
      fun e he => (hget e.key).symm.trans ((get?_eq_some_iff h).2 ⟨he, rfl⟩)
    refine ⟨h, fun key => ⟨fun hkey => ?_, ?_⟩, fun e he => isLatest_iff_find?.2 (hlatest e he)⟩
    · obtain ⟨e, he, rfl⟩ := List.mem_map.1 hkey
      exact ⟨e, List.mem_reverse.1 (List.mem_of_find?_eq_some (hlatest e he)), rfl⟩
    · rintro ⟨e, he, rfl⟩
      have hsome : (ix.get? e.key).isSome := by
        rw [hget, List.find?_isSome]
        exact ⟨e, List.mem_reverse.2 he, decide_eq_true rfl⟩
      obtain ⟨f, hf⟩ := Option.isSome_iff_exists.1 hsome
      obtain ⟨hmem, hkey⟩ := (get?_eq_some_iff h).1 hf
      exact List.mem_map.2 ⟨f, hmem, hkey⟩

theorem gathers_iff : ix.Gathers es ↔ ix = ofEntries es := by
  constructor
  · intro h
    refine eq_of_get?_eq h.ascending (ascending_ofEntries es) fun key => ?_
    rw [(gathers_iff_get? h.ascending).1 h, get?_ofEntries]
  · rintro rfl
    exact (gathers_iff_get? (ascending_ofEntries es)).2 (get?_ofEntries es)

/-- An index made from a list all at once is the one that writing the entries one by one leads to,
and the only one in order that holds the keys of the list, each with the latest of its entries. -/
theorem ofEntries_eq_upserts (es : List Entry) :
    ofEntries es = es.foldl (fun ix e => (ix.upsert e).1) empty ∧
      ofEntries es = ofSorted (es.mergeSort fun e f => e.key ≤ f.key) ∧
      ∀ ix : Index, ix.Gathers es ↔ ix = ofEntries es := by
  refine ⟨?_, (ofSorted_eq _).symm, fun ix => gathers_iff⟩
  -- the bulk and the writes one by one stand for the same map
  have hwrites := (keeps_origin .new).run (es.map .upsert)
  rw [List.foldl_map, List.foldl_map] at hwrites
  exact (keeps_origin (.entries es)).eq hwrites

example : ofEntries [⟨⟨0⟩, 5, [97]⟩, ⟨⟨0⟩, 1, [98]⟩, ⟨⟨1⟩, 5, [99]⟩] =
    ⟨#[⟨⟨0⟩, 1, [98]⟩, ⟨⟨1⟩, 5, [99]⟩]⟩ := by
  cbv

end SnapshotStore.Index
