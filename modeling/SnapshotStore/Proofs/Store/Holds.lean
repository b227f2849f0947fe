import SnapshotStore.Proofs.Memory.Windows
import SnapshotStore.Proofs.Store.Write

namespace SnapshotStore.Store

/-- All groups are handed out, and their indexes are ascending lists of entries that `P` allows. -/
structure Holds (s : Store) (count : Nat) (P : GroupId → Entry → Prop) : Prop where
  length : s.groups.length = count
  allocated : s.allocated = count
  ascending : ∀ (n : Nat) (g : Group), s.groups[n]? = some g → g.index.Ascending
  allowed : ∀ (n : Nat) (g : Group), s.groups[n]? = some g → ∀ e ∈ g.index.toList, P (.ofSlot n) e

variable {s : Store} {count : Nat} {P : GroupId → Entry → Prop} {id : GroupId} {key : Key}

theorem Holds.group (h : s.Holds count P) (hid : id.slot < count) :
    ∃ g, s.group id = .ok g ∧ g.index.Ascending ∧ ∀ e ∈ g.index.toList, P id e := by
  have hget := List.getElem?_eq_getElem (h.length.symm ▸ hid : id.slot < s.groups.length)
  refine ⟨_, group_eq_ok.2 ⟨h.allocated ▸ hid, hget⟩, h.ascending _ _ hget, ?_⟩
  have hallowed := h.allowed _ _ hget
  rwa [GroupId.ofSlot_slot] at hallowed

theorem Holds.publish (h : s.Holds count P) {next : Index} (gaveWay : Bool)
    (hascending : next.Ascending) (hallowed : ∀ e ∈ next.toList, P id e) :
    (s.publish id next gaveWay).Holds count P := by
  have hgroups : ∀ (n : Nat) (g : Group), (s.publish id next gaveWay).groups[n]? = some g →
      g.index.Ascending ∧ ∀ e ∈ g.index.toList, P (.ofSlot n) e := by
    intro n g hg
    obtain ⟨old, rfl, -, rfl⟩ | ⟨-, hold⟩ := publish_cases hg
    · rw [GroupId.ofSlot_slot]
      exact ⟨hascending, hallowed⟩
    · exact ⟨h.ascending n g hold, h.allowed n g hold⟩
  exact ⟨(length_publish ..).trans h.length, h.allocated, fun n g hg => (hgroups n g hg).1,
    fun n g hg => (hgroups n g hg).2⟩

theorem Holds.put (h : s.Holds count P) {g : Group} {e : Entry} (gaveWay : Bool)
    (hg : s.group id = .ok g) (he : P id e) :
    (s.publish id (g.index.upsert e).1 gaveWay).Holds count P := by
  obtain ⟨-, hget⟩ := group_eq_ok.1 hg
  have hascending := h.ascending _ _ hget
  refine h.publish gaveWay (Index.ascending_upsert hascending e) fun f hf => ?_
  obtain rfl | ⟨hf, -⟩ := (Index.mem_upsert hascending).1 hf
  · exact he
  · have := h.allowed _ _ hget f hf
    rwa [GroupId.ofSlot_slot] at this

theorem Holds.remove (h : s.Holds count P) {g : Group} {next : Index} {e : Entry} (gaveWay : Bool)
    (hg : s.group id = .ok g) (hr : g.index.remove key = some (next, e)) :
    (s.publish id next gaveWay).Holds count P := by
  obtain ⟨-, hget⟩ := group_eq_ok.1 hg
  have hascending := h.ascending _ _ hget
  refine h.publish gaveWay (Index.ascending_remove hascending hr) fun f hf => ?_
  have := h.allowed _ _ hget f ((Index.mem_remove hascending hr).1 hf).1
  rwa [GroupId.ofSlot_slot] at this

theorem Holds.get (h : s.Holds count P) (hid : id.slot < count) (key : Key) :
    s.get id key = .error (.keyNotFound id key) ∨
      ∃ e, s.get id key = .ok e ∧ e.key = key ∧ P id e := by
  obtain ⟨g, hg, hascending, hallowed⟩ := h.group hid
  rw [Store.get, withEntry_of_group _ hg]
  cases hget : g.index.get? key with
  | none => exact .inl rfl
  | some e =>
    obtain ⟨hmem, hkey⟩ := (Index.get?_eq_some_iff hascending).1 hget
    exact .inr ⟨e, rfl, hkey, hallowed e hmem⟩

section Delivery

variable {a : Arena}

theorem read_of_error {e : StoreError} (h : s.get id key = .error e) (offset length : Nat)
    (dst : Destination UInt8) : s.read id key offset length dst = (.error e, dst) := by
  simp only [read, h]

theorem read_foreign {e : Entry} (off : Nat) (hget : s.get id key = .ok e)
    (hpos : 0 < e.payload.length) (hfit : a.base.toNat + a.size < wordSize)
    (hlen : off + e.payload.length ≤ a.size) :
    s.read id key 0 e.payload.length (.foreign a (a.base + UInt64.ofNat off)) =
      (.ok e.payload.length,
        .foreign (a.write off e.payload) (a.base + UInt64.ofNat off)) := by
  have hwrite := Destination.writeBytes_foreign _ _ hfit hlen
  have hnot : ¬ e.len ≤ 0 := Nat.not_le.2 hpos
  have htake : (e.payload.drop 0).take (min e.payload.length (e.len - 0)) = e.payload := by
    simp [Entry.len]
  simp only [read, hget, if_neg hnot, htake, hwrite]
  simp [Entry.len]

theorem listKeys_foreign {g : Group} (off : Nat) (hg : s.group id = .ok g) (capacity : Nat)
    (hfit : a.base.toNat + a.size < wordSize) (hlen : off + capacity * keySize ≤ a.size) :
    s.listKeys id capacity (.foreign a (a.base + UInt64.ofNat off)) =
      (.ok (g.index.keys.take capacity).length,
        .foreign (a.write off ((g.index.keys.take capacity).flatMap Bytes.ofWord))
          (a.base + UInt64.ofNat off)) := by
  have hle : (g.index.keys.take capacity).length * keySize ≤ capacity * keySize :=
    Nat.mul_le_mul_right _ (List.length_take_le ..)
  have hwrite := Destination.writeKeys_foreign off (g.index.keys.take capacity) 0 hfit
     (by rw [Nat.zero_add]; omega)
  rw [Nat.zero_mul, Nat.add_zero] at hwrite
  simp only [listKeys, snapshot_of_group hg, Destination.ensureRoom, hwrite]

end Delivery

end SnapshotStore.Store
