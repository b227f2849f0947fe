import Mathlib.Data.List.Basic
import SnapshotStore.Proofs.Index.Search

namespace SnapshotStore.Index

variable {ix : Index} {key : Key}

theorem ascending_empty : empty.Ascending := by
  simp [Ascending, keys, toList, empty]

theorem ascending_iff : ix.Ascending ↔ ix.toList.Pairwise fun e f => e.key < f.key :=
  List.pairwise_map

theorem pairwise_between {below above : List Entry} {e : Entry}
    (h : (below ++ above).Pairwise fun e f => e.key < f.key)
    (hbelow : ∀ f ∈ below, f.key < e.key) (habove : ∀ f ∈ above, e.key < f.key) :
    (below ++ e :: above).Pairwise fun e f => e.key < f.key := by
  obtain ⟨hb, ha, hba⟩ := List.pairwise_append.1 h
  refine List.pairwise_append.2 ⟨hb, List.pairwise_cons.2 ⟨habove, ha⟩, ?_⟩
  intro f hf g hg
  obtain rfl | hg := List.mem_cons.1 hg
  · exact hbelow f hf
  · exact hba f hf g hg

theorem pairwise_without {below above : List Entry} {e : Entry}
    (h : (below ++ e :: above).Pairwise fun e f => e.key < f.key) :
    (below ++ above).Pairwise fun e f => e.key < f.key :=
  h.sublist ((List.sublist_cons_self e above).append_left below)

theorem insertIdx_length (below above : List Entry) (e : Entry) :
    (below ++ above).insertIdx below.length e = below ++ e :: above := by
  induction below with
  | nil => rfl
  | cons f below ih => simp [ih]

/-- What a write makes of an index: the entry of its key gives way, or one more entry stands
between those below and those above. -/
theorem upsert_cases (h : ix.Ascending) (e : Entry) :
    (∃ below f above, ix.toList = below ++ f :: above ∧ f.key = e.key ∧
      (∀ g ∈ below, g.key < e.key) ∧ (∀ g ∈ above, e.key < g.key) ∧
      (ix.upsert e).1.toList = below ++ e :: above ∧ (ix.upsert e).2 = some f) ∨
    (∃ below above, ix.toList = below ++ above ∧
      (∀ g ∈ below, g.key < e.key) ∧ (∀ g ∈ above, e.key < g.key) ∧
      (ix.upsert e).1.toList = below ++ e :: above ∧ (ix.upsert e).2 = none) := by
  cases located h e.key with
  | found below f above pos split hkey hbelow habove hpos hsearch =>
    refine .inl ⟨below, f, above, split, hkey, hbelow, habove, ?_, ?_⟩
    · have hs : ix.entries.toList = below ++ f :: above := split
      simp [upsert, hsearch, toList, hs, hpos]
    · simp [upsert, hsearch, getElem_of_split split hpos pos.isLt]
  | vacant below above pos split hbelow habove hpos hsearch =>
    refine .inr ⟨below, above, split, hbelow, habove, ?_, ?_⟩
    · have hs : ix.entries.toList = below ++ above := split
      simp [upsert, hsearch, toList, Array.toList_insertIdx, hs, hpos, insertIdx_length]
    · simp [upsert, hsearch]

/-- What a removal makes of an index: the entry of the key is taken out, or there is none. -/
theorem remove_cases (h : ix.Ascending) (key : Key) :
    (∃ below f above next, ix.toList = below ++ f :: above ∧ f.key = key ∧
      (∀ g ∈ below, g.key < key) ∧ (∀ g ∈ above, key < g.key) ∧
      ix.remove key = some (next, f) ∧ next.toList = below ++ above) ∨
    ((∀ g ∈ ix.toList, g.key ≠ key) ∧ ix.remove key = none) := by
  cases located h key with
  | found below f above pos split hkey hbelow habove hpos hsearch =>
    refine .inl ⟨below, f, above, ⟨ix.entries.eraseIdx pos⟩, split, hkey, hbelow, habove, ?_, ?_⟩
    · simp [remove, hsearch, getElem_of_split split hpos pos.isLt]
    · have hs : ix.entries.toList = below ++ f :: above := split
      simp [toList, Array.toList_eraseIdx, hs, hpos, List.eraseIdx_append_of_length_le]
  | vacant below above pos split hbelow habove hpos hsearch =>
    refine .inr ⟨?_, by simp [remove, hsearch]⟩
    intro g hg
    rw [split] at hg
    obtain hg | hg := List.mem_append.1 hg
    · exact UInt64.ne_of_lt (hbelow g hg)
    · exact (UInt64.ne_of_lt (habove g hg)).symm

theorem ascending_upsert (h : ix.Ascending) (e : Entry) : (ix.upsert e).1.Ascending := by
  rw [ascending_iff]
  obtain ⟨below, f, above, hs, hk, hb, ha, hn, -⟩ | ⟨below, above, hs, hb, ha, hn, -⟩ :=
    upsert_cases h e
  · rw [hn]
    exact pairwise_between (pairwise_without (hs ▸ pairwise_toList h)) hb ha
  · rw [hn]
    exact pairwise_between (hs ▸ pairwise_toList h) hb ha

theorem ascending_remove (h : ix.Ascending) {next : Index} {e : Entry}
    (hr : ix.remove key = some (next, e)) : next.Ascending := by
  rw [ascending_iff]
  obtain ⟨below, f, above, next', hs, -, -, -, hr', hn⟩ | ⟨-, hr'⟩ := remove_cases h key
  · rw [hr, Option.some.injEq, Prod.mk.injEq] at hr'
    rw [hr'.1, hn]
    exact pairwise_without (hs ▸ pairwise_toList h)
  · rw [hr] at hr'
    cases hr'

theorem mem_upsert (h : ix.Ascending) {e f : Entry} :
    f ∈ (ix.upsert e).1.toList ↔ f = e ∨ f ∈ ix.toList ∧ f.key ≠ e.key := by
  obtain ⟨below, g, above, hs, hk, hb, ha, hn, -⟩ | ⟨below, above, hs, hb, ha, hn, -⟩ :=
    upsert_cases h e
  · rw [hn, hs]
    grind
  · rw [hn, hs]
    grind

theorem mem_remove (h : ix.Ascending) {next : Index} {e f : Entry}
    (hr : ix.remove key = some (next, e)) :
    f ∈ next.toList ↔ f ∈ ix.toList ∧ f.key ≠ key := by
  obtain ⟨below, g, above, next', hs, hk, hb, ha, hr', hn⟩ | ⟨-, hr'⟩ := remove_cases h key
  · rw [hr, Option.some.injEq, Prod.mk.injEq] at hr'
    rw [hr'.1, hn, hs]
    grind
  · rw [hr] at hr'
    cases hr'

theorem upsert_snd (h : ix.Ascending) (e : Entry) : (ix.upsert e).2 = ix.get? e.key := by
  symm
  obtain ⟨below, f, above, hs, hk, -, -, -, ho⟩ | ⟨below, above, hs, hb, ha, -, ho⟩ :=
    upsert_cases h e
  · rw [ho]
    exact (get?_eq_some_iff h).2 ⟨by simp [hs], hk⟩
  · rw [ho, get?_eq_none_iff h, hs]
    grind

theorem get?_upsert (h : ix.Ascending) (e : Entry) (key : Key) :
    (ix.upsert e).1.get? key = if key = e.key then some e else ix.get? key := by
  apply Option.ext
  intro f
  rw [get?_eq_some_iff (ascending_upsert h e), mem_upsert h]
  by_cases hk : key = e.key
  · simp only [hk, ↓reduceIte, Option.some.injEq]
    constructor
    · rintro ⟨rfl | ⟨-, hne⟩, hf⟩
      · rfl
      · exact absurd hf hne
    · rintro rfl
      exact ⟨.inl rfl, rfl⟩
  · rw [if_neg hk, get?_eq_some_iff h]
    constructor
    · rintro ⟨rfl | ⟨hm, -⟩, hf⟩
      · exact absurd hf.symm hk
      · exact ⟨hm, hf⟩
    · rintro ⟨hm, rfl⟩
      exact ⟨.inr ⟨hm, hk⟩, rfl⟩

theorem size_upsert (h : ix.Ascending) (e : Entry) :
    (ix.upsert e).1.size + ((ix.upsert e).2.elim 0 fun _ => 1) = ix.size + 1 := by
  have hl : ∀ jx : Index, jx.size = jx.toList.length := fun jx => by simp [toList]
  obtain ⟨below, f, above, hs, -, -, -, hn, ho⟩ | ⟨below, above, hs, -, -, hn, ho⟩ :=
    upsert_cases h e
  · simp [hl, hn, hs, ho]
  · simp [hl, hn, hs, ho]
    omega

theorem remove_eq_none_iff (h : ix.Ascending) : ix.remove key = none ↔ ix.get? key = none := by
  rw [get?_eq_none_iff h]
  obtain ⟨below, f, above, next, hs, hk, -, -, hr, -⟩ | ⟨hne, hr⟩ := remove_cases h key
  · rw [hr]
    simp only [reduceCtorEq, false_iff, not_forall]
    exact ⟨f, by simp [hs], not_not.2 hk⟩
  · simpa [hr] using hne

theorem get?_of_remove (h : ix.Ascending) {next : Index} {e : Entry}
    (hr : ix.remove key = some (next, e)) : ix.get? key = some e := by
  obtain ⟨below, f, above, next', hs, hk, -, -, hr', -⟩ | ⟨-, hr'⟩ := remove_cases h key
  · rw [hr, Option.some.injEq, Prod.mk.injEq] at hr'
    rw [hr'.2]
    exact (get?_eq_some_iff h).2 ⟨by simp [hs], hk⟩
  · rw [hr] at hr'
    cases hr'

theorem get?_remove (h : ix.Ascending) {next : Index} {e : Entry}
    (hr : ix.remove key = some (next, e)) (other : Key) :
    next.get? other = if other = key then none else ix.get? other := by
  apply Option.ext
  intro f
  rw [get?_eq_some_iff (ascending_remove h hr), mem_remove h hr]
  by_cases ho : other = key
  · simp only [ho, ↓reduceIte, reduceCtorEq, iff_false]
    exact fun ⟨⟨_, hne⟩, hf⟩ => hne hf
  · rw [if_neg ho, get?_eq_some_iff h]
    constructor
    · exact fun ⟨⟨hm, _⟩, hf⟩ => ⟨hm, hf⟩
    · rintro ⟨hm, rfl⟩
      exact ⟨⟨hm, ho⟩, rfl⟩

theorem upsert_eq_iff (h : ix.Ascending) {e : Entry} {next : Index} {gaveWay : Option Entry} :
    ix.upsert e = (next, gaveWay) ↔ next.Ascending ∧ gaveWay = ix.get? e.key ∧
      ∀ other, next.get? other = if other = e.key then some e else ix.get? other := by
  constructor
  · intro hu
    have hascending := ascending_upsert h e
    have hsnd := upsert_snd h e
    have hget := get?_upsert h e
    rw [hu] at hascending hsnd hget
    exact ⟨hascending, hsnd, hget⟩
  · rintro ⟨hnext, hsnd, hget⟩
    have hindex : (ix.upsert e).1 = next :=
      eq_of_get?_eq (ascending_upsert h e) hnext fun other =>
        (get?_upsert h e other).trans (hget other).symm
    exact Prod.ext hindex ((upsert_snd h e).trans hsnd.symm)

theorem remove_eq_some_iff (h : ix.Ascending) {e : Entry} {next : Index} :
    ix.remove key = some (next, e) ↔ next.Ascending ∧ ix.get? key = some e ∧
      ∀ other, next.get? other = if other = key then none else ix.get? other := by
  refine ⟨fun hr => ⟨ascending_remove h hr, get?_of_remove h hr, get?_remove h hr⟩, ?_⟩
  rintro ⟨hnext, hsome, hget⟩
  cases hr : ix.remove key with
  | none =>
    rw [(remove_eq_none_iff h).1 hr] at hsome
    cases hsome
  | some removed =>
    obtain ⟨left, f⟩ := removed
    have hentry : f = e := Option.some.inj ((get?_of_remove h hr).symm.trans hsome)
    have hindex : left = next := eq_of_get?_eq (ascending_remove h hr) hnext fun other =>
      (get?_remove h hr other).trans (hget other).symm
    rw [hentry, hindex]

theorem size_remove (h : ix.Ascending) {next : Index} {e : Entry}
    (hr : ix.remove key = some (next, e)) : next.size + 1 = ix.size := by
  have hl : ∀ jx : Index, jx.size = jx.toList.length := fun jx => by simp [toList]
  obtain ⟨below, f, above, next', hs, -, -, -, hr', hn⟩ | ⟨-, hr'⟩ := remove_cases h key
  · rw [hr, Option.some.injEq, Prod.mk.injEq] at hr'
    simp [hl, hr'.1, hn, hs]
    omega
  · rw [hr] at hr'
    cases hr'

theorem length_le_of_pairwise {ks : List Key} (lo hi : Nat) (h : ks.Pairwise (· < ·))
    (hlo : ∀ k ∈ ks, lo ≤ k.toNat) (hhi : ∀ k ∈ ks, k.toNat < hi) : ks.length ≤ hi - lo := by
  induction ks generalizing lo with
  | nil => exact Nat.zero_le _
  | cons k ks ih =>
    obtain ⟨hk, hrest⟩ := List.pairwise_cons.1 h
    have hle := hlo k List.mem_cons_self
    have hlt := hhi k List.mem_cons_self
    have hlen := ih (k.toNat + 1) hrest (fun j hj => UInt64.lt_iff_toNat_lt.1 (hk j hj))
      fun j hj => hhi j (List.mem_cons_of_mem _ hj)
    rw [List.length_cons]
    omega

theorem size_le (h : ix.Ascending) {bound : Key} (hlt : ∀ e ∈ ix.toList, e.key < bound) :
    ix.size ≤ bound.toNat := by
  have hlen := length_le_of_pairwise 0 bound.toNat h (fun k _ => Nat.zero_le _)
    fun k hk => by
      obtain ⟨e, he, rfl⟩ := List.mem_map.1 hk
      exact UInt64.lt_iff_toNat_lt.1 (hlt e he)
  simpa [keys, toList] using hlen

end SnapshotStore.Index
