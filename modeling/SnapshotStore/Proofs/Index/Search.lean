import Mathlib.Data.List.Basic
import SnapshotStore.Index.Update

namespace SnapshotStore.Index

variable {ix : Index} {key : Key}

@[simp] theorem length_toList (ix : Index) : ix.toList.length = ix.size := Array.length_toList

@[simp] theorem length_keys (ix : Index) : ix.keys.length = ix.size := by
  rw [keys, List.length_map, length_toList]

theorem pairwise_toList (h : ix.Ascending) : ix.toList.Pairwise fun e f => e.key < f.key :=
  List.pairwise_map.1 h

theorem key_lt_key (h : ix.Ascending) {i j : Nat} (hij : i < j) (hj : j < ix.entries.size) :
    ix.entries[i].key < ix.entries[j].key := by
  have hp := List.pairwise_iff_getElem.1 (pairwise_toList h) i j
  have hlen : ix.toList.length = ix.entries.size := by simp [toList]
  simpa [toList] using hp (by omega) (by omega) hij

/-- The bounds that the halving keeps hold of the place it ends at. -/
theorem narrow_spec (h : ix.Ascending) (key : Key) (lo hi : Nat) (hle : lo ≤ hi)
    (hhi : hi ≤ ix.size)
    (hbelow : ∀ i (hs : i < ix.size), i < lo → ix.entries[i].key < key)
    (habove : ∀ i (hs : i < ix.size), hi ≤ i → key ≤ ix.entries[i].key) :
    narrow ix.entries key lo hi hhi ≤ ix.size ∧
      (∀ i (hs : i < ix.size), i < narrow ix.entries key lo hi hhi → ix.entries[i].key < key) ∧
      (∀ i (hs : i < ix.size), narrow ix.entries key lo hi hhi ≤ i → key ≤ ix.entries[i].key) := by
  fun_induction narrow ix.entries key lo hi hhi with
  | case1 lo hi hhi hlt hmid hkey ih =>
    refine ih (by omega) ?_ habove
    intro i hi' hil
    obtain hm | rfl := Nat.lt_or_eq_of_le (Nat.le_of_lt_succ hil)
    · exact UInt64.lt_trans (key_lt_key h hm hmid) hkey
    · exact hkey
  | case2 lo hi hhi hlt hmid hkey ih =>
    refine ih (by omega) hbelow ?_
    intro i hi' hil
    have hk : key ≤ ix.entries[(lo + hi) / 2].key := UInt64.not_lt.1 hkey
    obtain hm | rfl := Nat.lt_or_eq_of_le hil
    · exact UInt64.le_trans hk (UInt64.le_of_lt (key_lt_key h hm hi'))
    · exact hk
  | case3 lo hi hhi hlt =>
    obtain rfl : lo = hi := by omega
    exact ⟨hhi, hbelow, habove⟩

theorem rank_spec (h : ix.Ascending) (key : Key) :
    ix.rank key ≤ ix.size ∧
      (∀ i (hi : i < ix.size), i < ix.rank key → ix.entries[i].key < key) ∧
      ∀ i (hi : i < ix.size), ix.rank key ≤ i → key ≤ ix.entries[i].key :=
  narrow_spec h key 0 ix.size (Nat.zero_le _) (Nat.le_refl _)
    (fun i _ hi => absurd hi (Nat.not_lt_zero i)) fun _ hs hi => absurd hs (Nat.not_lt.2 hi)

theorem position_search (h : ix.Ascending) (key : Key) :
    (ix.search key).position = ix.rank key := by
  by_cases hlt : ix.rank key < ix.size
  · by_cases hkey : ix.entries[ix.rank key].key = key
    · simp only [search, dif_pos hlt, if_pos hkey, Place.position]
    · simp only [search, dif_pos hlt, if_neg hkey, Place.position]
  · simp only [search, dif_neg hlt, Place.position]
    exact Nat.le_antisymm (Nat.not_lt.1 hlt) (rank_spec h key).1

/-- Where a key stands: at an entry, or between the entries below it and those above it. -/
inductive Located (ix : Index) (key : Key) : Prop where
  | found (below : List Entry) (e : Entry) (above : List Entry) (pos : Fin ix.size)
      (split : ix.toList = below ++ e :: above) (hkey : e.key = key)
      (hbelow : ∀ f ∈ below, f.key < key) (habove : ∀ f ∈ above, key < f.key)
      (hpos : pos.val = below.length) (hsearch : ix.search key = .found pos)
  | vacant (below above : List Entry) (pos : Fin (ix.size + 1))
      (split : ix.toList = below ++ above)
      (hbelow : ∀ f ∈ below, f.key < key) (habove : ∀ f ∈ above, key < f.key)
      (hpos : pos.val = below.length) (hsearch : ix.search key = .vacant pos)

theorem mem_take_lt {n : Nat} (hn : ∀ i (hi : i < ix.size), i < n → ix.entries[i].key < key) :
    ∀ f ∈ ix.toList.take n, f.key < key := by
  intro f hf
  obtain ⟨i, hi, rfl⟩ := List.mem_take_iff_getElem.1 hf
  have hs : i < ix.size := by simpa [toList] using (Nat.lt_min.1 hi).2
  simpa [toList] using hn i hs (Nat.lt_min.1 hi).1

theorem mem_drop_of_getElem {n : Nat} {p : Entry → Prop}
    (hn : ∀ i (hi : i < ix.size), n ≤ i → p ix.entries[i]) : ∀ f ∈ ix.toList.drop n, p f := by
  intro f hf
  obtain ⟨i, hi, rfl⟩ := List.mem_drop_iff_getElem.1 hf
  have hs : n + i < ix.size := by simpa [toList, Nat.add_comm] using hi
  simpa [toList] using hn (n + i) hs (Nat.le_add_right n i)

/-- The search finds the place of every key of an ascending index. -/
theorem located (h : ix.Ascending) (key : Key) : ix.Located key := by
  obtain ⟨hle, hbelow, habove⟩ := rank_spec h key
  have hlen : (ix.toList.take (ix.rank key)).length = ix.rank key := by
    simpa [toList] using Nat.min_eq_left hle
  have hcut := (List.take_append_drop (ix.rank key) ix.toList).symm
  by_cases hlt : ix.rank key < ix.size
  · by_cases hkey : ix.entries[ix.rank key].key = key
    · have hdrop : ix.toList.drop (ix.rank key) =
          ix.entries[ix.rank key] :: ix.toList.drop (ix.rank key + 1) := by
        simpa [toList] using List.drop_eq_getElem_cons (l := ix.toList) (by simpa [toList] using hlt)
      rw [hdrop] at hcut
      refine .found _ _ _ ⟨ix.rank key, hlt⟩ hcut hkey (mem_take_lt hbelow) ?_ hlen.symm ?_
      · refine mem_drop_of_getElem fun i hi hr => ?_
        exact hkey ▸ key_lt_key h (Nat.lt_of_succ_le hr) hi
      · simp [search, hlt, hkey]
    · refine .vacant _ _ ⟨ix.rank key, by omega⟩ hcut (mem_take_lt hbelow) ?_ hlen.symm ?_
      · refine mem_drop_of_getElem fun i hi hr => ?_
        obtain hr | rfl := Nat.lt_or_eq_of_le hr
        · exact UInt64.lt_of_le_of_lt (habove _ hlt (Nat.le_refl _)) (key_lt_key h hr hi)
        · exact UInt64.lt_of_le_of_ne (habove _ hlt (Nat.le_refl _)) (Ne.symm hkey)
      · simp [search, hlt, hkey]
  · have heq : ix.rank key = ix.size := by omega
    refine .vacant _ _ ⟨ix.size, by omega⟩ hcut (mem_take_lt hbelow) ?_ (by rw [hlen, heq]) ?_
    · exact mem_drop_of_getElem fun i hi hr => absurd hi (by omega)
    · simp [search, hlt]

theorem getElem_of_split {below above : List Entry} {e : Entry} {pos : Nat}
    (hs : ix.toList = below ++ e :: above) (hp : pos = below.length) (hlt : pos < ix.size) :
    ix.entries[pos] = e := by
  subst hp
  have : ix.toList[below.length]? = some e := by simp [hs]
  simpa [toList, List.getElem?_eq_some_iff, hlt] using this

theorem get?_eq_some_iff (h : ix.Ascending) {e : Entry} :
    ix.get? key = some e ↔ e ∈ ix.toList ∧ e.key = key := by
  cases located h key with
  | found below f above pos split hkey hbelow habove hpos hsearch =>
    have hget : ix.get? key = some f := by
      simp only [get?, hsearch, Fin.getElem_fin, getElem_of_split split hpos pos.isLt]
    rw [hget, split, Option.some.injEq]
    constructor
    · rintro rfl
      exact ⟨by simp, hkey⟩
    · rintro ⟨hm, he⟩
      obtain hm | hm := List.mem_append.1 hm
      · exact absurd he (UInt64.ne_of_lt (hbelow e hm))
      · obtain rfl | hm := List.mem_cons.1 hm
        · rfl
        · exact absurd he (UInt64.ne_of_lt (habove e hm)).symm
  | vacant below above pos split hbelow habove hpos hsearch =>
    have hget : ix.get? key = none := by simp only [get?, hsearch]
    rw [hget, split]
    refine ⟨fun hn => by simp at hn, ?_⟩
    rintro ⟨hm, he⟩
    obtain hm | hm := List.mem_append.1 hm
    · exact absurd he (UInt64.ne_of_lt (hbelow e hm))
    · exact absurd he (UInt64.ne_of_lt (habove e hm)).symm

theorem get?_eq_none_iff (h : ix.Ascending) :
    ix.get? key = none ↔ ∀ e ∈ ix.toList, e.key ≠ key := by
  constructor
  · intro hn e he hk
    have := (get?_eq_some_iff h).2 ⟨he, hk⟩
    rw [hn] at this
    cases this
  · intro hne
    cases hg : ix.get? key with
    | none => rfl
    | some e =>
      obtain ⟨he, hk⟩ := (get?_eq_some_iff h).1 hg
      exact absurd hk (hne e he)

theorem eq_of_get?_eq {jx : Index} (hi : ix.Ascending) (hj : jx.Ascending)
    (h : ∀ key, ix.get? key = jx.get? key) : ix = jx := by
  have hnodup : ∀ {kx : Index}, kx.Ascending → kx.toList.Nodup := fun hk =>
    (pairwise_toList hk).imp fun hlt heq => UInt64.ne_of_lt hlt (congrArg Entry.key heq)
  have hmem : ∀ e, e ∈ ix.toList ↔ e ∈ jx.toList := by
    intro e
    have hin : ∀ {kx : Index}, kx.Ascending → (e ∈ kx.toList ↔ kx.get? e.key = some e) :=
      fun hk => by rw [get?_eq_some_iff hk, and_iff_left rfl]
    rw [hin hi, hin hj, h]
  have hperm := (List.perm_ext_iff_of_nodup (hnodup hi) (hnodup hj)).2 hmem
  have hlist : ix.toList = jx.toList :=
    hperm.eq_of_pairwise (fun e f _ _ hef hfe => absurd hef (UInt64.lt_asymm hfe))
      (pairwise_toList hi) (pairwise_toList hj)
  exact congrArg Index.mk (Array.toList_inj.1 hlist)

theorem get?_eq_find? (h : ix.Ascending) (key : Key) :
    ix.get? key = ix.toList.find? fun e => e.key = key := by
  cases located h key with
  | found below e above pos split hkey hbelow habove hpos hsearch =>
    have hget : ix.get? key = some e := (get?_eq_some_iff h).2 ⟨by simp [split], hkey⟩
    have hb : below.find? (fun e => e.key = key) = none :=
      List.find?_eq_none.2 fun f hf => by simpa using UInt64.ne_of_lt (hbelow f hf)
    rw [hget, split, List.find?_append, hb, List.find?_cons_of_pos (by simpa using hkey)]
    rfl
  | vacant below above pos split hbelow habove hpos hsearch =>
    have hget : ix.get? key = none := by simp only [get?, hsearch]
    rw [hget, eq_comm, List.find?_eq_none]
    simpa using (get?_eq_none_iff h).1 hget

theorem countP_lt_append {below above : List Entry} (hbelow : ∀ f ∈ below, f.key < key)
    (habove : ∀ f ∈ above, key < f.key) :
    ((below ++ above).map Entry.key).countP (· < key) = below.length := by
  have hb : (below.map Entry.key).countP (· < key) = below.length := by
    rw [← List.length_map (f := Entry.key), List.countP_eq_length]
    simpa using hbelow
  have ha : (above.map Entry.key).countP (· < key) = 0 := by
    rw [List.countP_eq_zero]
    simpa using fun f hf => UInt64.le_of_lt (habove f hf)
  rw [List.map_append, List.countP_append, hb, ha, Nat.add_zero]

/-- A search finds the position of a key among the keys, or tells how many of them are below it. -/
theorem search_cases (h : ix.Ascending) (key : Key) :
    (∃ pos, ix.search key = .found pos ∧ key ∈ ix.keys ∧ pos.val = ix.keys.idxOf key) ∨
    ∃ pos, ix.search key = .vacant pos ∧ key ∉ ix.keys ∧ pos.val = ix.keys.countP (· < key) := by
  cases located h key with
  | found below e above pos split hkey hbelow habove hpos hsearch =>
    have hkeys : ix.keys = below.map Entry.key ++ key :: above.map Entry.key := by
      rw [keys, split, List.map_append, List.map_cons, hkey]
    have hnot : key ∉ below.map Entry.key := by
      intro hmem
      obtain ⟨f, hf, heq⟩ := List.mem_map.1 hmem
      exact UInt64.ne_of_lt (hbelow f hf) heq
    refine .inl ⟨pos, hsearch, ?_, ?_⟩
    · rw [hkeys]
      exact List.mem_append_right _ List.mem_cons_self
    · rw [hkeys, List.idxOf_append_of_notMem hnot, List.idxOf_cons_self, List.length_map, hpos]
      rfl
  | vacant below above pos split hbelow habove hpos hsearch =>
    have hkeys : ix.keys = (below ++ above).map Entry.key := congrArg (List.map Entry.key) split
    refine .inr ⟨pos, hsearch, ?_, ?_⟩
    · rw [hkeys]
      intro hmem
      obtain ⟨f, hf, heq⟩ := List.mem_map.1 hmem
      obtain hf | hf := List.mem_append.1 hf
      · exact UInt64.ne_of_lt (hbelow f hf) heq
      · exact UInt64.ne_of_lt (habove f hf) heq.symm
    · rw [hkeys, countP_lt_append hbelow habove, hpos]

theorem search_eq_found_iff (h : ix.Ascending) {pos : Nat} (hpos : pos < ix.size) :
    ix.search key = .found ⟨pos, hpos⟩ ↔ ix.entries[pos].key = key := by
  have hmem : ix.entries[pos] ∈ ix.toList := Array.mem_toList_iff.2 (Array.getElem_mem hpos)
  cases located h key with
  | found below e above spot split hkey hbelow habove hspot hsearch =>
    have hat : ix.entries[spot].key = key := by
      rw [Fin.getElem_fin, getElem_of_split split hspot spot.isLt, hkey]
    rw [hsearch, Place.found.injEq]
    refine ⟨fun heq => ?_, fun hpkey => Fin.ext ?_⟩
    · subst heq
      exact hat
    · have hsame : ix.entries[spot].key = ix.entries[pos].key := hat.trans hpkey.symm
      obtain hlt | heq | hgt := Nat.lt_trichotomy spot.val pos
      · exact absurd hsame (UInt64.ne_of_lt (key_lt_key h hlt hpos))
      · exact heq
      · exact absurd hsame.symm (UInt64.ne_of_lt (key_lt_key h hgt spot.isLt))
  | vacant below above spot split hbelow habove hspot hsearch =>
    have hnone : ix.get? key = none := by simp only [get?, hsearch]
    rw [hsearch]
    exact iff_of_false nofun ((get?_eq_none_iff h).1 hnone _ hmem)

theorem search_eq_vacant_iff (h : ix.Ascending) {pos : Fin (ix.size + 1)} :
    ix.search key = .vacant pos ↔
      (∀ f ∈ ix.toList.take pos, f.key < key) ∧ ∀ f ∈ ix.toList.drop pos, key < f.key := by
  cases located h key with
  | found below e above spot split hkey hbelow habove hpos hsearch =>
    have hmem : e ∈ ix.toList.take pos ++ ix.toList.drop pos := by
      rw [List.take_append_drop, split]
      exact List.mem_append_right _ List.mem_cons_self
    rw [hsearch]
    refine iff_of_false nofun fun ⟨hlow, hhigh⟩ => ?_
    obtain hin | hin := List.mem_append.1 hmem
    · exact UInt64.ne_of_lt (hlow e hin) hkey
    · exact UInt64.ne_of_lt (hhigh e hin) hkey.symm
  | vacant below above spot split hbelow habove hpos hsearch =>
    rw [hsearch, Place.vacant.injEq]
    constructor
    · rintro rfl
      rw [split, hpos, List.take_left, List.drop_left]
      exact ⟨hbelow, habove⟩
    · -- either cut tells how many keys are below
      rintro ⟨hlow, hhigh⟩
      have hcut := countP_lt_append hlow hhigh
      have hsize : pos.val ≤ ix.toList.length := by
        rw [length_toList]
        exact Nat.le_of_lt_succ pos.isLt
      rw [List.take_append_drop, split, countP_lt_append hbelow habove,
        ← split, List.length_take_of_le hsize] at hcut
      exact Fin.ext (hpos.trans hcut)

theorem tail_eq_filter (h : ix.Ascending) (key : Key) :
    ix.tail key = ix.toList.filter fun e => key ≤ e.key := by
  cases located h key with
  | found below f above pos split hkey hbelow habove hpos hsearch =>
    have hb : below.filter (fun e => decide (key ≤ e.key)) = [] := by
      simpa [List.filter_eq_nil_iff] using hbelow
    have ha : above.filter (fun e => decide (key ≤ e.key)) = above := by
      simpa [List.filter_eq_self] using fun e he => UInt64.le_of_lt (habove e he)
    simp [tail, hsearch, Place.position, hpos, split, hb, ha, hkey]
  | vacant below above pos split hbelow habove hpos hsearch =>
    have hb : below.filter (fun e => decide (key ≤ e.key)) = [] := by
      simpa [List.filter_eq_nil_iff] using hbelow
    have ha : above.filter (fun e => decide (key ≤ e.key)) = above := by
      simpa [List.filter_eq_self] using fun e he => UInt64.le_of_lt (habove e he)
    simp [tail, hsearch, Place.position, hpos, split, hb, ha]

theorem strictlyAscending_iff (ks : List Key) :
    strictlyAscending ks = true ↔ ks.Pairwise (· < ·) := by
  induction ks with
  | nil => simp [strictlyAscending]
  | cons a ks ih =>
    cases ks with
    | nil => simp [strictlyAscending]
    | cons b rest =>
      rw [strictlyAscending, Bool.and_eq_true, ih, decide_eq_true_iff, List.pairwise_cons (a := a)]
      refine ⟨fun ⟨hab, hp⟩ => ⟨?_, hp⟩, fun ⟨ha, hp⟩ => ⟨ha b (by simp), hp⟩⟩
      intro c hc
      obtain rfl | hc := List.mem_cons.1 hc
      · exact hab
      · exact UInt64.lt_trans hab ((List.pairwise_cons.1 hp).1 c hc)

theorem isAscending_iff (ix : Index) : ix.isAscending = true ↔ ix.Ascending :=
  strictlyAscending_iff ix.keys

end SnapshotStore.Index
