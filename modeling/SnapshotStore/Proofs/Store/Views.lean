import SnapshotStore.Proofs.Index.Search
import SnapshotStore.Proofs.Memory.Faults
import SnapshotStore.Proofs.Store.WellFormed

namespace SnapshotStore

/-- By every route the store shows the group of the snapshot as the snapshot does, and the routes
into the snapshot show one and the same list of entries. -/
structure Snapshot.AgreesWith (snap : Snapshot) (s : Store) : Prop where
  groupSize : s.groupSize snap.group = .ok snap.index.size
  isEmpty : snap.index.isEmpty = true ↔ snap.index.size = 0
  size : snap.index.toList.length = snap.index.size
  ascending : snap.index.keys.Pairwise (· < ·)
  tagged : ∀ e ∈ snap.index.toList, e.group = snap.group
  get? (key : Key) : snap.index.get? key = snap.index.toList.find? fun e => e.key = key
  get (key : Key) : s.get snap.group key =
    (snap.index.get? key).elim (.error (.keyNotFound snap.group key)) .ok
  withEntry {α : Type} (view : Entry → α) (key : Key) : s.withEntry snap.group key view =
    (snap.index.get? key).elim (.error (.keyNotFound snap.group key)) fun e => .ok (view e)
  forEach {σ β : Type} (visit : Entry → σ → Option β × σ) (state : σ) :
    s.forEach snap.group visit state = .ok (Store.visitAll visit snap.index.toList state)
  scan {σ β : Type} (note : Entry → σ → σ) (state : σ) :
    s.forEach snap.group (fun e st => ((none : Option β), note e st)) state =
      .ok (none, snap.index.toList.foldl (fun st e => note e st) state)
  listKeys {capacity : Nat} {buffer : List Key} (hsize : snap.index.size ≤ capacity)
    (hroom : capacity ≤ buffer.length) : s.listKeys snap.group capacity (.own buffer) =
      (.ok snap.index.size, .own (snap.index.keys ++ buffer.drop snap.index.size))
  /-- What arrives in foreign memory can be loaded from there. -/
  listKeysForeign {capacity : Nat} {a : Arena} {off : Nat} (hsize : snap.index.size ≤ capacity)
    (hfit : a.base.toNat + a.size < wordSize) (hroom : off + snap.index.size * keySize ≤ a.size) :
    ∃ b, s.listKeys snap.group capacity (.foreign a (a.base + UInt64.ofNat off)) =
        (.ok snap.index.size, .foreign b (a.base + UInt64.ofNat off)) ∧
      b.loadKeys (a.base + UInt64.ofNat off) snap.index.size = .ok snap.index.keys
  tail (first : Key) :
    snap.index.tail first = snap.index.toList.filter fun e => first ≤ e.key
  search (key : Key) :
    (∃ pos, snap.index.search key = .found pos ∧ key ∈ snap.index.keys ∧
      pos.val = snap.index.keys.idxOf key) ∨
    ∃ pos, snap.index.search key = .vacant pos ∧ key ∉ snap.index.keys ∧
      pos.val = snap.index.keys.countP (· < key)

theorem Snapshot.AgreesWith.get_eq_ok {snap : Snapshot} {s : Store} (h : snap.AgreesWith s)
    {key : Key} {e : Entry} : s.get snap.group key = .ok e ↔ snap.index.get? key = some e := by
  rw [h.get]
  cases snap.index.get? key <;> simp

namespace Store

variable {s : Store} {id : GroupId} {g : Group} {capacity : Nat}

theorem listKeys_of_size_le (hg : s.group id = .ok g) (hsize : g.index.size ≤ capacity)
    {dst next : Destination Key} (hroom : dst.ensureRoom capacity = .ok ())
    (hwrite : dst.writeKeys 0 g.index.keys = (.ok (), next)) :
    s.listKeys id capacity dst = (.ok g.index.size, next) := by
  have htake : g.index.keys.take capacity = g.index.keys :=
    List.take_of_length_le (by rwa [Index.length_keys])
  simp only [listKeys, snapshot_of_group hg, hroom, htake, hwrite, Index.length_keys]

theorem listKeys_own (hg : s.group id = .ok g) (hsize : g.index.size ≤ capacity)
    {buffer : List Key} (hroom : capacity ≤ buffer.length) :
    s.listKeys id capacity (.own buffer) =
      (.ok g.index.size, .own (g.index.keys ++ buffer.drop g.index.size)) := by
  refine listKeys_of_size_le hg hsize ?_ ?_
  · rw [Destination.ensureRoom, if_neg (Nat.not_lt.2 hroom)]
  · have hfit : 0 + g.index.keys.length ≤ buffer.length := by
      rw [Index.length_keys]
      omega
    rw [Destination.writeKeys_own hfit, List.take_zero, List.nil_append, Nat.zero_add,
      Index.length_keys]

theorem exists_listKeys_foreign (hg : s.group id = .ok g) (hsize : g.index.size ≤ capacity)
    {a : Arena} {off : Nat} (hfit : a.base.toNat + a.size < wordSize)
    (hroom : off + g.index.size * keySize ≤ a.size) :
    ∃ b, s.listKeys id capacity (.foreign a (a.base + UInt64.ofNat off)) =
        (.ok g.index.size, .foreign b (a.base + UInt64.ofNat off)) ∧
      b.loadKeys (a.base + UInt64.ofNat off) g.index.size = .ok g.index.keys := by
  have hlen : (g.index.keys.flatMap Bytes.ofWord).length = g.index.size * keySize := by
    rw [length_flatMap_ofWord, Index.length_keys]
  have hwrite := Destination.writeKeys_foreign off g.index.keys 0 hfit
    (by rwa [Nat.zero_add, Index.length_keys])
  rw [Nat.zero_mul, Nat.add_zero] at hwrite
  refine ⟨_, listKeys_of_size_le hg hsize rfl hwrite, ?_⟩
  have hload := Arena.loadKeys_add (a := a.write off (g.index.keys.flatMap Bytes.ofWord)) off
    g.index.size (by simpa using hfit) (by simpa using hroom)
  rw [Arena.base_write, ← hlen, Arena.slice_write_self off _ (hlen ▸ hroom), ← Index.length_keys,
    words_flatMap_ofWord] at hload
  rwa [← Index.length_keys]

theorem WellFormed.get_eq_ok {config : Config} (hs : s.WellFormed config)
    (hg : s.group id = .ok g) {key : Key} {e : Entry} :
    s.get id key = .ok e ↔ e ∈ g.index.toList ∧ e.key = key := by
  have hget : s.get id key = (g.index.get? key).elim (.error (.keyNotFound id key)) .ok :=
    withEntry_of_group _ hg
  rw [hget, ← Index.get?_eq_some_iff (hs.ascending hg)]
  cases g.index.get? key <;> simp

theorem WellFormed.agreesWith {config : Config} (hs : s.WellFormed config)
    (hg : s.group id = .ok g) : Snapshot.AgreesWith ⟨id, g.index⟩ s where
  groupSize := by
    rw [groupSize, hg]
    rfl
  isEmpty := by simp [Index.isEmpty]
  size := g.index.length_toList
  ascending := hs.ascending hg
  tagged e he := (hs.entry_group hg he).1
  get? := Index.get?_eq_find? (hs.ascending hg)
  get key := withEntry_of_group _ hg
  withEntry view key := withEntry_of_group view hg
  forEach visit state := by rw [Store.forEach, snapshot_of_group hg, Except.map]
  scan note state := by
    rw [Store.forEach, snapshot_of_group hg, Except.map, visitAll_of_continue]
  listKeys hsize := listKeys_own hg hsize
  listKeysForeign hsize := exists_listKeys_foreign hg hsize
  tail := Index.tail_eq_filter (hs.ascending hg)
  search := Index.search_cases (hs.ascending hg)

end Store

end SnapshotStore
