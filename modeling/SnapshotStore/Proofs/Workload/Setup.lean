import SnapshotStore.Workload.Run

namespace SnapshotStore

namespace World

theorem allocateAll_eq {store : Store} {n : Nat} (h : store.allocated + n ≤ store.groups.length) :
    allocateAll n store = { store with allocated := store.allocated + n } := by
  induction n generalizing store with
  | zero => rfl
  | succ n ih =>
    have hlt : store.allocated < store.groups.length := by omega
    have hnext : store.allocate.2 = { store with allocated := store.allocated + 1 } := by
      simp only [Store.allocate, if_pos hlt]
    rw [allocateAll, hnext, ih (by dsimp only; omega)]
    dsimp only
    rw [Nat.add_assoc, Nat.add_comm 1]

end World

namespace Workload

def slotSize (plan : Workload) : Nat := max plan.payloadLen (plan.keys.toNat * keySize)

/-- What it takes for a run to be set up. -/
structure Accepted (plan : Workload) : Prop where
  groups_pos : 1 ≤ plan.groups
  groups_le : plan.groups ≤ groupLimit
  keys_pos : 0 < plan.keys
  overhead_le : Payload.overhead ≤ plan.payloadLen
  list_lt : plan.keys.toNat * keySize < wordSize
  arena_le : plan.slotSize * max plan.readers 1 ≤ maxBuffer
  writers_lt : plan.groups * plan.writersPerGroup < wordSize

theorem Accepted.fit {plan : Workload} (hp : plan.Accepted) :
    World.arenaBase.toNat + plan.slotSize * max plan.readers 1 < wordSize := by
  have hle := hp.arena_le
  have hbase : World.arenaBase.toNat = 2 ^ 28 := rfl
  simp only [maxBuffer, wordSize] at hle ⊢
  omega

theorem window_le {plan : Workload} {n : Nat} (hn : n < plan.readers) :
    n * plan.slotSize + plan.slotSize ≤ plan.slotSize * max plan.readers 1 := by
  have hle : n + 1 ≤ max plan.readers 1 := Nat.le_trans hn (Nat.le_max_left ..)
  calc n * plan.slotSize + plan.slotSize = plan.slotSize * (n + 1) := by
        rw [Nat.mul_comm plan.slotSize, Nat.succ_mul]
    _ ≤ plan.slotSize * max plan.readers 1 := Nat.mul_le_mul_left _ hle

theorem window_disjoint {m n : Nat} (hmn : m ≠ n) (size : Nat) :
    m * size + size ≤ n * size ∨ n * size + size ≤ m * size := by
  have hlt : ∀ {i j : Nat}, i < j → i * size + size ≤ j * size := fun {i j} hij => by
    rw [← Nat.succ_mul]
    exact Nat.mul_le_mul_right size hij
  obtain h | h := Nat.lt_or_gt_of_ne hmn
  · exact .inl (hlt h)
  · exact .inr (hlt h)

/-- A run can be set up, and its writers get memory for their payloads. -/
structure Feasible (plan : Workload) : Prop extends plan.Accepted where
  room : reserve plan.payloadLen = .ok ()

variable {plan : Workload}

theorem validate_eq_ok : plan.validate = .ok () ↔
    (1 ≤ plan.groups ∧ plan.groups ≤ groupLimit) ∧
      0 < plan.keys ∧ Payload.overhead ≤ plan.payloadLen := by
  have hkeys : plan.keys = 0 ↔ ¬ 0 < plan.keys := by
    rw [UInt64.lt_iff_toNat_lt, ← UInt64.toNat_inj]
    simp
  unfold validate
  split
  · next h =>
    simp only [reduceCtorEq, false_iff]
    omega
  · next h =>
    rw [not_or, Nat.not_lt] at h
    split
    · next h' =>
      simp only [reduceCtorEq, false_iff]
      rintro ⟨-, hk, ho⟩
      obtain h' | h' := h'
      · exact hkeys.1 h' hk
      · exact absurd ho (Nat.not_le.2 h')
    · next h' =>
      rw [not_or, hkeys, Classical.not_not, Nat.not_lt] at h'
      simp only [true_iff]
      exact ⟨⟨Nat.one_le_iff_ne_zero.2 h.1, h.2⟩, h'⟩

theorem layout_eq_ok {layout : Layout} : plan.layout = .ok layout ↔
    plan.keys.toNat * keySize < wordSize ∧ plan.slotSize * max plan.readers 1 ≤ maxBuffer ∧
      plan.groups * plan.writersPerGroup < wordSize ∧
      layout = ⟨plan.slotSize, plan.slotSize * max plan.readers 1,
        plan.groups * plan.writersPerGroup⟩ := by
  have hword : maxBuffer < wordSize := by decide
  by_cases hlist : plan.keys.toNat * keySize < wordSize
  · by_cases harena : plan.slotSize * max plan.readers 1 ≤ maxBuffer
    · have htotal := Nat.lt_of_le_of_lt harena hword
      simp only [slotSize] at harena htotal ⊢
      by_cases hwriters : plan.groups * plan.writersPerGroup < wordSize
      · simp [Workload.layout, Word.mul, Word.capacity, bind, Except.bind, pure, Except.pure, hlist,
          harena, htotal, hwriters, eq_comm]
      · simp [Workload.layout, Word.mul, Word.capacity, bind, Except.bind, hlist, harena, htotal,
          hwriters]
    · simp only [slotSize] at harena ⊢
      by_cases htotal :
          max plan.payloadLen (plan.keys.toNat * keySize) * max plan.readers 1 < wordSize
      · simp [Workload.layout, Word.mul, Word.capacity, bind, Except.bind, hlist, harena, htotal]
      · simp [Workload.layout, Word.mul, bind, Except.bind, hlist, harena, htotal]
  · simp [Workload.layout, Word.mul, bind, Except.bind, hlist]

def setup (plan : Workload) : World :=
  .initial plan
    ⟨plan.slotSize, plan.slotSize * max plan.readers 1, plan.groups * plan.writersPerGroup⟩
    { config := plan.config
      groups := (List.range plan.groups).map fun n => ⟨.ofSlot n, .empty⟩
      allocated := 0
      reclaimer := { eager := plan.eagerReclaim } }

theorem store_setup (plan : Workload) : plan.setup.store =
    { config := plan.config
      groups := (List.range plan.groups).map fun n => ⟨.ofSlot n, .empty⟩
      allocated := plan.groups
      reclaimer := { eager := plan.eagerReclaim } } := by
  simp [setup, World.initial, World.allocateAll_eq]

theorem world_eq_ok {w : World} : plan.world = .ok w ↔ plan.Accepted ∧ w = plan.setup := by
  constructor
  · intro h
    unfold world at h
    split at h
    · cases h
    · next hvalid =>
      split at h
      · cases h
      · next store hstore =>
        split at h
        · cases h
        · next layout hlayout =>
          cases h
          obtain ⟨⟨hpos, hle⟩, hkeys, hpayload⟩ := validate_eq_ok.1 hvalid
          obtain ⟨hlist, harena, hwriters, rfl⟩ := layout_eq_ok.1 hlayout
          refine ⟨⟨hpos, hle, hkeys, hpayload, hlist, harena, hwriters⟩, ?_⟩
          have hconfig : plan.config.validate = .ok () := Config.validate_eq_ok.2 ⟨hpos, hle⟩
          rw [Store.init, hconfig] at hstore
          cases hstore
          rfl
  · rintro ⟨hp, rfl⟩
    have hvalid := validate_eq_ok.2 ⟨⟨hp.groups_pos, hp.groups_le⟩, hp.keys_pos, hp.overhead_le⟩
    have hlayout := layout_eq_ok.2 ⟨hp.list_lt, hp.arena_le, hp.writers_lt, rfl⟩
    have hconfig : plan.config.validate = .ok () :=
      Config.validate_eq_ok.2 ⟨hp.groups_pos, hp.groups_le⟩
    simp only [world, hvalid, Store.init, hconfig, hlayout]
    rfl

end Workload

end SnapshotStore
