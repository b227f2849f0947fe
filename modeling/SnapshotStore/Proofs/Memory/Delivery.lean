import SnapshotStore.Proofs.Memory.Faults
import SnapshotStore.Proofs.Memory.Law

namespace SnapshotStore

namespace Arena

variable {a b c : Arena} {addr : Address} {pos off j : Nat} {bs cs : Bytes}

/-- `b` is `a` with `bs` in place of the bytes from `pos` on, a position of the address space, and
with nothing else changed. -/
structure Overwritten (a : Arena) (pos : Nat) (bs : Bytes) (b : Arena) : Prop where
  base : b.base = a.base
  size : b.size = a.size
  bytes : ∀ i < a.size, b.memory[i]? =
    if pos ≤ a.base.toNat + i ∧ a.base.toNat + i < pos + bs.length then
      bs[a.base.toNat + i - pos]?
    else
      a.memory[i]?

theorem overwritten_nil (a : Arena) (pos : Nat) : a.Overwritten pos [] a where
  base := rfl
  size := rfl
  bytes i _ := by
    rw [if_neg]
    rw [List.length_nil]
    omega

theorem overwritten_write (hpos : a.base.toNat + off = pos) (hfit : off + bs.length ≤ a.size) :
    a.Overwritten pos bs (a.write off bs) where
  base := base_write
  size := size_write
  bytes i _ := by
    have hin : off ≤ i ∧ i < off + bs.length ↔
        pos ≤ a.base.toNat + i ∧ a.base.toNat + i < pos + bs.length := by omega
    have hidx : a.base.toNat + i - pos = i - off := by omega
    rw [write, getElem?_overwrite _ _ _ hfit, hidx]
    exact if_congr hin rfl rfl

theorem Overwritten.append (h : a.Overwritten pos bs b) (h' : b.Overwritten (pos + bs.length) cs c) :
    a.Overwritten pos (bs ++ cs) c where
  base := h'.base.trans h.base
  size := h'.size.trans h.size
  bytes i hi := by
    have hb := h.bytes i hi
    have hc := h'.bytes i (h.size.symm ▸ hi)
    rw [h.base] at hc
    rw [List.length_append]
    by_cases hlow : a.base.toNat + i < pos + bs.length
    · -- the second write begins behind this byte
      rw [hc, if_neg (by omega), hb]
      by_cases hpos : pos ≤ a.base.toNat + i
      · rw [if_pos ⟨hpos, hlow⟩, if_pos (by omega), List.getElem?_append_left (by omega)]
      · rw [if_neg (by omega), if_neg (by omega)]
    · have hout : ¬ (pos ≤ a.base.toNat + i ∧ a.base.toNat + i < pos + bs.length) :=
        fun hin => hlow hin.2
      rw [hc, hb, if_neg hout, List.getElem?_append_right (by omega), Nat.sub_add_eq]
      exact if_congr (by omega) rfl rfl

theorem Overwritten.load (h : a.Overwritten addr.toNat bs b)
    (hm : Mapped a.base a.size addr bs.length) : b.load addr bs.length = .ok bs := by
  obtain ⟨hle, hfit⟩ := hm
  have hw : b.window addr bs.length = .ok (addr.toNat - a.base.toNat) := by
    rw [window_eq_ok, h.base, h.size]
    exact ⟨Nat.add_sub_of_le hle, hfit⟩
  have hslice : b.slice (addr.toNat - a.base.toNat) bs.length = bs := by
    have hfit' : addr.toNat - a.base.toNat + bs.length ≤ b.size := h.size ▸ hfit
    apply List.ext_getElem?
    intro i
    by_cases hi : i < bs.length
    · have hidx : a.base.toNat + (addr.toNat - a.base.toNat + i) - addr.toNat = i := by omega
      rw [getElem?_slice hfit' hi, h.bytes _ (by omega), if_pos (by omega), hidx]
    · rw [List.getElem?_eq_none (by rw [length_slice hfit']; omega),
        List.getElem?_eq_none (by omega)]
  simp only [Arena.load, hw]
  exact congrArg Except.ok hslice

theorem Overwritten.loadKeys {ks : List Key}
    (h : a.Overwritten addr.toNat (ks.flatMap Bytes.ofWord) b)
    (hm : Mapped a.base a.size addr (ks.length * keySize)) :
    b.loadKeys addr ks.length = .ok ks := by
  have hsize : a.size < wordSize := a.size_lt
  have hmul : Word.mul ks.length keySize = .ok (ks.length * keySize) :=
    Word.mul_eq_ok.2 ⟨by have := hm.2; omega, rfl⟩
  have hload := h.load (by rwa [length_flatMap_ofWord])
  rw [length_flatMap_ofWord] at hload
  simp only [Arena.loadKeys, hmul, hload, Except.map, words_flatMap_ofWord]

/-- Slot `j` of a list of keys at `addr` begins at an address and is mapped, by unbounded
arithmetic. -/
def TakesSlot (a : Arena) (addr : Address) (j : Nat) : Prop :=
  addr.toNat + j * keySize < wordSize ∧ a.base.toNat ≤ addr.toNat + j * keySize ∧
    addr.toNat + j * keySize + keySize ≤ a.base.toNat + a.size

instance (a : Arena) (addr : Address) (j : Nat) : Decidable (a.TakesSlot addr j) :=
  inferInstanceAs (Decidable (_ ∧ _))

theorem Overwritten.takesSlot_iff (h : a.Overwritten pos bs b) :
    b.TakesSlot addr j ↔ a.TakesSlot addr j := by
  rw [TakesSlot, TakesSlot, h.base, h.size]

theorem mapped_of_takesSlot {n : Nat} (hn : 0 < n) (h : ∀ j < n, a.TakesSlot addr j) :
    Mapped a.base a.size addr (n * keySize) := by
  obtain ⟨m, rfl⟩ : ∃ m, n = m + 1 := ⟨n - 1, by omega⟩
  obtain ⟨-, hfirst, -⟩ := h 0 hn
  obtain ⟨-, -, hlast⟩ := h m (Nat.lt_succ_self m)
  have hmul : (m + 1) * keySize = m * keySize + keySize := Nat.succ_mul ..
  exact ⟨by omega, by omega⟩

end Arena

namespace Destination

open Arena (Mapped Overwritten)

variable {a : Arena} {addr : Address} {slot : Nat}

theorem writeBytes_of_mapped {bs : Bytes} (h : Mapped a.base a.size addr bs.length) :
    ∃ b, (foreign a addr).writeBytes bs = (.ok (), foreign b addr) ∧
      a.Overwritten addr.toNat bs b := by
  have hw : a.window addr bs.length = .ok (addr.toNat - a.base.toNat) := by
    rw [Arena.window_eq, if_pos h]
  refine ⟨a.write (addr.toNat - a.base.toNat) bs, ?_,
    Arena.overwritten_write (Nat.add_sub_of_le h.1) h.2⟩
  simp only [writeBytes, ensureRoom, Arena.store, hw, Arena.write]

theorem writeBytes_of_not_mapped {bs : Bytes} (h : ¬ Mapped a.base a.size addr bs.length) :
    (foreign a addr).writeBytes bs =
      (.error (.copyFault ⟨addr, bs.length⟩), foreign a addr) := by
  have hw : a.window addr bs.length = .error ⟨addr, bs.length⟩ := by
    rw [Arena.window_eq, if_neg h]
  simp only [writeBytes, ensureRoom, Arena.store, hw]

/-- What is reported of a slot that cannot be written: its address or, if it lies beyond the last
address, that of the list. -/
def slotFault (addr : Address) (slot : Nat) : CopyFault :=
  ⟨if addr.toNat + slot * keySize < wordSize then UInt64.ofNat (addr.toNat + slot * keySize)
    else addr, keySize⟩

theorem slotAddress_of_lt (h : addr.toNat + slot * keySize < wordSize) :
    slotAddress addr slot = .ok (UInt64.ofNat (addr.toNat + slot * keySize)) :=
  slotAddress_eq_ok.2 (UInt64.toNat_ofNat_of_lt' h)

theorem exists_slotAddress_eq_error (h : ¬ addr.toNat + slot * keySize < wordSize) :
    ∃ o, slotAddress addr slot = .error o := by
  cases htarget : slotAddress addr slot with
  | error o => exact ⟨o, rfl⟩
  | ok target =>
    have hlt : target.toNat < wordSize := target.toNat_lt
    exact absurd (slotAddress_eq_ok.1 htarget ▸ hlt) h

theorem writeKey_of_takesSlot (h : a.TakesSlot addr slot) (key : Key) :
    ∃ b, (foreign a addr).writeKey slot key = (.ok (), foreign b addr) ∧
      a.Overwritten (addr.toNat + slot * keySize) (Bytes.ofWord key) b := by
  obtain ⟨hlt, hle, hend⟩ := h
  have hlen : (Bytes.ofWord key).length = keySize := Bytes.length_ofWord key
  have hto : (UInt64.ofNat (addr.toNat + slot * keySize)).toNat = addr.toNat + slot * keySize :=
    UInt64.toNat_ofNat_of_lt' hlt
  have hw : a.window (UInt64.ofNat (addr.toNat + slot * keySize)) (Bytes.ofWord key).length =
      .ok (addr.toNat + slot * keySize - a.base.toNat) := by
    rw [Arena.window_eq_ok, hto, hlen]
    omega
  refine ⟨a.write (addr.toNat + slot * keySize - a.base.toNat) (Bytes.ofWord key), ?_,
    Arena.overwritten_write (by omega) (by omega)⟩
  simp only [writeKey, slotAddress_of_lt hlt, Arena.store, hw, Arena.write]

theorem writeKey_of_not_takesSlot (h : ¬ a.TakesSlot addr slot) (key : Key) :
    (foreign a addr).writeKey slot key =
      (.error (.copyFault (slotFault addr slot)), foreign a addr) := by
  by_cases hlt : addr.toNat + slot * keySize < wordSize
  · have hlen : (Bytes.ofWord key).length = keySize := Bytes.length_ofWord key
    have hto : (UInt64.ofNat (addr.toNat + slot * keySize)).toNat = addr.toNat + slot * keySize :=
      UInt64.toNat_ofNat_of_lt' hlt
    have hunmapped : ¬ Mapped a.base a.size (UInt64.ofNat (addr.toNat + slot * keySize))
        (Bytes.ofWord key).length := by
      rintro ⟨hle, hfit⟩
      rw [hto] at hle hfit
      exact h ⟨hlt, hle, by omega⟩
    have hw : a.window (UInt64.ofNat (addr.toNat + slot * keySize)) (Bytes.ofWord key).length =
        .error (slotFault addr slot) := by
      rw [Arena.window_eq, if_neg hunmapped, slotFault, if_pos hlt, hlen]
    simp only [writeKey, slotAddress_of_lt hlt, Arena.store, hw]
  · obtain ⟨o, ho⟩ := exists_slotAddress_eq_error hlt
    simp only [writeKey, ho, slotFault, if_neg hlt]

theorem writeKeys_of_takesSlot (slot : Nat) (ks : List Key)
    (h : ∀ j < ks.length, a.TakesSlot addr (slot + j)) :
    ∃ b, (foreign a addr).writeKeys slot ks = (.ok (), foreign b addr) ∧
      a.Overwritten (addr.toNat + slot * keySize) (ks.flatMap Bytes.ofWord) b := by
  induction ks generalizing a slot with
  | nil => exact ⟨a, rfl, a.overwritten_nil _⟩
  | cons key ks ih =>
    rw [List.length_cons] at h
    have hslot : a.TakesSlot addr slot := h 0 (Nat.succ_pos _)
    obtain ⟨b, hkey, hb⟩ := writeKey_of_takesSlot hslot key
    obtain ⟨c, hrest, hc⟩ := ih (a := b) (slot + 1) fun j hj => by
      rw [hb.takesSlot_iff, Nat.add_assoc, Nat.add_comm 1]
      exact h (j + 1) (Nat.succ_lt_succ hj)
    refine ⟨c, ?_, ?_⟩
    · simp only [writeKeys, hkey, hrest]
    · rw [Nat.succ_mul, ← Nat.add_assoc] at hc
      exact hb.append (Bytes.length_ofWord key ▸ hc)

/-- The first slot that cannot be written stops the list; the slots before it are written. -/
theorem writeKeys_of_not_takesSlot (slot : Nat) (ks : List Key) {j : Nat} (hj : j < ks.length)
    (hbefore : ∀ i < j, a.TakesSlot addr (slot + i)) (hnot : ¬ a.TakesSlot addr (slot + j)) :
    ∃ b, (foreign a addr).writeKeys slot ks =
        (.error (.copyFault (slotFault addr (slot + j))), foreign b addr) ∧
      a.Overwritten (addr.toNat + slot * keySize) ((ks.take j).flatMap Bytes.ofWord) b := by
  induction ks generalizing a slot j with
  | nil => exact absurd hj (Nat.not_lt_zero j)
  | cons key ks ih =>
    cases j with
    | zero =>
      rw [Nat.add_zero] at hnot ⊢
      refine ⟨a, ?_, a.overwritten_nil _⟩
      simp only [writeKeys, writeKey_of_not_takesSlot hnot key]
    | succ j =>
      have hshift : ∀ i, slot + 1 + i = slot + (i + 1) := fun i => by omega
      have hslot : a.TakesSlot addr slot := hbefore 0 (Nat.succ_pos j)
      obtain ⟨b, hkey, hb⟩ := writeKey_of_takesSlot hslot key
      obtain ⟨c, hrest, hc⟩ := ih (a := b) (slot + 1) (Nat.lt_of_succ_lt_succ hj)
        (fun i hi => by
          rw [hb.takesSlot_iff, hshift]
          exact hbefore (i + 1) (Nat.succ_lt_succ hi))
        (by rwa [hb.takesSlot_iff, hshift])
      refine ⟨c, ?_, ?_⟩
      · simp only [writeKeys, hkey, hrest, hshift]
      · rw [Nat.succ_mul, ← Nat.add_assoc] at hc
        exact hb.append (Bytes.length_ofWord key ▸ hc)

end Destination

end SnapshotStore
