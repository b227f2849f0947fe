import Mathlib.Data.Nat.Find
import SnapshotStore.Proofs.Memory.Delivery
import SnapshotStore.Proofs.Session.Representation
import SnapshotStore.Proofs.Store.Views

namespace SnapshotStore

/-- `ks` are, in ascending order, the `n` smallest of the keys with property `P`. -/
structure Smallest (P : Key → Prop) (n : Nat) (ks : List Key) : Prop where
  length : ks.length = n
  ascending : ks.Pairwise (· < ·)
  has : ∀ k ∈ ks, P k
  least : ∀ k, P k → k ∉ ks → ∀ other ∈ ks, other < k

theorem smallest_take {P : Key → Prop} {ks : List Key} (h : ks.Pairwise (· < ·))
    (hmem : ∀ k, k ∈ ks ↔ P k) (n : Nat) : Smallest P (min n ks.length) (ks.take n) where
  length := List.length_take
  ascending := h.sublist (List.take_sublist n ks)
  has k hk := (hmem k).1 (List.mem_of_mem_take hk)
  least k hk hnot other hother := by
    have hcut := List.take_append_drop n ks
    have hmemk : k ∈ ks := (hmem k).2 hk
    rw [← hcut] at hmemk h
    obtain hin | hin := List.mem_append.1 hmemk
    · exact absurd hin hnot
    · exact (List.pairwise_append.1 h).2.2 other hother k hin

/-- What a list of the keys `ks`, of which `capacity` were asked for, has to answer, and what it
leaves of its destination. -/
inductive Listed (ks : List Key) (capacity : Nat) :
    Destination Key → Except StoreError Nat × Destination Key → Prop
  /-- Room is asked for as many keys as were asked for, however few there are. -/
  | short {buffer : List Key} (h : buffer.length < capacity) :
    Listed ks capacity (.own buffer)
      (.error (.invalidArgument (.tooLittleRoom buffer.length capacity)), .own buffer)
  | own {buffer : List Key} (h : capacity ≤ buffer.length) :
    Listed ks capacity (.own buffer) (.ok ks.length, .own (ks ++ buffer.drop ks.length))
  | foreign {a b : Arena} {addr : Address} (h : ∀ j < ks.length, a.TakesSlot addr j)
      (hb : a.Overwritten addr.toNat (ks.flatMap Bytes.ofWord) b)
      (hload : ks ≠ [] → b.loadKeys addr ks.length = .ok ks) :
    Listed ks capacity (.foreign a addr) (.ok ks.length, .foreign b addr)
  /-- The slots before the first that cannot be written are written all the same. -/
  | fault {a b : Arena} {addr : Address} {j : Nat} (hj : j < ks.length)
      (hbefore : ∀ i < j, a.TakesSlot addr i) (hnot : ¬ a.TakesSlot addr j)
      (hb : a.Overwritten addr.toNat ((ks.take j).flatMap Bytes.ofWord) b) :
    Listed ks capacity (.foreign a addr)
      (.error (.copyFault (Destination.slotFault addr j)), .foreign b addr)

namespace Store

variable {s : Store} {id : GroupId} {g : Group} {capacity : Nat}

theorem listKeys_of_le (h : s.allocated ≤ id.slot) (capacity : Nat) (dst : Destination Key) :
    s.listKeys id capacity dst = (.error (.groupNotFound id), dst) := by
  simp only [listKeys, snapshot, group_of_le h, Except.map]

theorem listKeys_of_room (hg : s.group id = .ok g) {dst next : Destination Key}
    {result : Except StoreError Unit} (hroom : dst.ensureRoom capacity = .ok ())
    (hwrite : dst.writeKeys 0 (g.index.keys.take capacity) = (result, next)) :
    s.listKeys id capacity dst =
      (result.map fun _ => (g.index.keys.take capacity).length, next) := by
  simp only [listKeys, snapshot_of_group hg, hroom, hwrite]
  cases result <;> rfl

theorem listed_own (hg : s.group id = .ok g) (buffer : List Key) :
    Listed (g.index.keys.take capacity) capacity (.own buffer)
      (s.listKeys id capacity (.own buffer)) := by
  by_cases hshort : buffer.length < capacity
  · have hlist : s.listKeys id capacity (.own buffer) =
        (.error (.invalidArgument (.tooLittleRoom buffer.length capacity)), .own buffer) := by
      simp only [listKeys, snapshot_of_group hg, Destination.ensureRoom, if_pos hshort]
    rw [hlist]
    exact .short hshort
  · have hfit : 0 + (g.index.keys.take capacity).length ≤ buffer.length := by
      rw [Nat.zero_add]
      exact Nat.le_trans (List.length_take_le ..) (Nat.not_lt.1 hshort)
    have hwrite := Destination.writeKeys_own hfit
    rw [List.take_zero, List.nil_append, Nat.zero_add] at hwrite
    have hroom : (Destination.own buffer).ensureRoom capacity = .ok () := if_neg hshort
    rw [listKeys_of_room hg hroom hwrite]
    exact .own (Nat.not_lt.1 hshort)

theorem listed_foreign (hg : s.group id = .ok g) (a : Arena) (addr : Address) :
    Listed (g.index.keys.take capacity) capacity (.foreign a addr)
      (s.listKeys id capacity (.foreign a addr)) := by
  have hzero : addr.toNat + 0 * keySize = addr.toNat := by rw [Nat.zero_mul, Nat.add_zero]
  by_cases hall : ∀ j < (g.index.keys.take capacity).length, a.TakesSlot addr j
  · obtain ⟨b, hwrite, hb⟩ := Destination.writeKeys_of_takesSlot 0 (g.index.keys.take capacity)
      fun j hj => (Nat.zero_add j).symm ▸ hall j hj
    rw [hzero] at hb
    rw [listKeys_of_room hg rfl hwrite]
    refine .foreign hall hb fun hne => hb.loadKeys ?_
    exact Arena.mapped_of_takesSlot (List.length_pos_iff.2 hne) hall
  · -- some slot cannot be written; the list gets as far as the first of them
    have hsome : ∃ j, j < (g.index.keys.take capacity).length ∧ ¬ a.TakesSlot addr j := by
      simpa only [not_forall, exists_prop] using hall
    obtain ⟨hj, hnot⟩ := Nat.find_spec hsome
    have hbefore : ∀ i < Nat.find hsome, a.TakesSlot addr i := fun i hi =>
      not_not.1 fun hi' => Nat.find_min hsome hi ⟨Nat.lt_trans hi hj, hi'⟩
    obtain ⟨b, hwrite, hb⟩ := Destination.writeKeys_of_not_takesSlot 0
      (g.index.keys.take capacity) hj (fun i hi => (Nat.zero_add i).symm ▸ hbefore i hi)
      ((Nat.zero_add (Nat.find hsome)).symm ▸ hnot)
    rw [hzero] at hb
    rw [Nat.zero_add] at hwrite
    rw [listKeys_of_room hg rfl hwrite]
    exact .fault hj hbefore hnot hb

theorem listKeys_listed (hg : s.group id = .ok g) (dst : Destination Key) :
    Listed (g.index.keys.take capacity) capacity dst (s.listKeys id capacity dst) := by
  cases dst with
  | own buffer => exact listed_own hg buffer
  | foreign a addr => exact listed_foreign hg a addr

theorem WellFormed.smallest_keys {config : Config} (hs : s.WellFormed config)
    (hg : s.group id = .ok g) (capacity : Nat) :
    Smallest (fun key => ∃ e, s.get id key = .ok e) (min capacity g.size)
      (g.index.keys.take capacity) := by
  have hascending := hs.ascending hg
  have hmem : ∀ key, key ∈ g.index.keys ↔ ∃ e, s.get id key = .ok e := by
    intro key
    simp only [hs.get_eq_ok hg, Index.keys, List.mem_map]
  have hsize : g.size = g.index.keys.length := (Index.length_keys g.index).symm
  rw [hsize]
  exact smallest_take hascending hmem capacity

end Store

namespace Account

/-- A list of keys of a group that is handed out delivers its smallest keys, as many as are asked
for and are there, and comes to the same whatever the destination, as far as it can be written. -/
theorem listKeys_listed_smallest {config : Config} {store : Store}
    (hinit : Store.init config = .ok store) (arenas : List Arena) {a : Account}
    (h : Reaches (start store arenas) a) (id : GroupId) (capacity : Nat) :
    (a.store.allocated ≤ id.slot → ∀ dst,
      a.store.listKeys id capacity dst = (.error (.groupNotFound id), dst)) ∧
    (id.slot < a.store.allocated → ∃ size ks, a.store.groupSize id = .ok size ∧
      Smallest (fun key => ∃ e, a.store.get id key = .ok e) (min capacity size) ks ∧
      ∀ dst, Listed ks capacity dst (a.store.listKeys id capacity dst)) := by
  have hs := h.wellFormed (Store.WellFormed.init hinit)
  refine ⟨fun hid => Store.listKeys_of_le hid capacity, fun hid => ?_⟩
  obtain ⟨g, -, hg⟩ := hs.exists_group hid
  refine ⟨g.size, g.index.keys.take capacity, ?_, hs.smallest_keys hg capacity,
    Store.listKeys_listed hg⟩
  rw [Store.groupSize, hg]
  rfl

theorem listKeys_listed_smallest_edge :
    Store.init pairConfig = .ok pair ∧ Reaches (start pair []) twoEntries ∧
      (∃ ks, Smallest (fun key => ∃ e, twoEntries.store.get ⟨0⟩ key = .ok e) 2 ks ∧
        Listed ks 3 (.foreign (.zeroed (-8) 24) (-8))
          (twoEntries.store.listKeys ⟨0⟩ 3 (.foreign (.zeroed (-8) 24) (-8)))) ∧
      twoEntries.store.listKeys ⟨0⟩ 3 (.foreign (.zeroed (-8) 24) (-8)) =
        (.error (.copyFault ⟨-8, 8⟩),
          .foreign ((Arena.zeroed (-8) 24).write 0 (Bytes.ofWord 5)) (-8)) := by
  have hinit : Store.init pairConfig = .ok pair := rfl
  obtain ⟨-, hhere⟩ := listKeys_listed_smallest hinit [] reaches_twoEntries ⟨0⟩ 3
  obtain ⟨size, ks, hsize, hsmallest, hlisted⟩ := hhere (by decide +kernel)
  have htwo : twoEntries.store.groupSize ⟨0⟩ = .ok 2 := by decide +kernel
  obtain rfl := Except.ok.inj (hsize.symm.trans htwo)
  exact ⟨hinit, reaches_twoEntries, ⟨ks, hsmallest, hlisted _⟩, by decide +kernel⟩

end Account

end SnapshotStore
