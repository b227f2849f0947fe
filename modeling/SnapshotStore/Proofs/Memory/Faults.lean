import SnapshotStore.Proofs.Memory.Windows

namespace SnapshotStore

namespace Arena

variable {a b : Arena} {addr : Address}

theorem store_of_error {bs : Bytes} {fault : CopyFault}
    (h : a.store addr bs = (.error fault, b)) : b = a := by
  unfold store at h
  split at h
  · cases h
  · cases h
    rfl

theorem copyIn_of_error {buffer next : Bytes} {fault : CopyFault}
    (h : a.copyIn addr buffer = (.error fault, next)) : next = buffer := by
  unfold copyIn at h
  split at h
  · cases h
  · cases h
    rfl

/-- What a list of keys that stopped short leaves of the memory: slot `k` of `addr` faults, and only
the slots from number `first` on and before it may have been written. -/
structure Interrupted (a b : Arena) (addr : Address) (first k : Nat) (fault : CopyFault) : Prop where
  base : b.base = a.base
  size : b.size = a.size
  faults : ∀ key, (Destination.foreign b addr).writeKey k key =
    (.error (.copyFault fault), .foreign b addr)
  spared : ∀ i, b.memory[i]? ≠ a.memory[i]? →
    addr.toNat + first * keySize ≤ a.base.toNat + i ∧ a.base.toNat + i < addr.toNat + k * keySize

end Arena

namespace Destination

variable {a : Arena} {addr : Address} {slot : Nat}

theorem writeBytes_of_error {dst next : Destination UInt8} {bs : Bytes} {e : StoreError}
    (h : dst.writeBytes bs = (.error e, next)) : next = dst := by
  unfold writeBytes at h
  split at h
  · cases h
    rfl
  · split at h
    · cases h
    · next a addr _ =>
      generalize hstore : a.store addr bs = result at h
      obtain ⟨fault | _, b⟩ := result
      · obtain rfl := Arena.store_of_error hstore
        cases h
        rfl
      · cases h

theorem writeKeys_own {buffer ks : List Key} (h : slot + ks.length ≤ buffer.length) :
    (own buffer).writeKeys slot ks =
      (.ok (), own (buffer.take slot ++ ks ++ buffer.drop (slot + ks.length))) := by
  induction ks generalizing buffer slot with
  | nil => simp [writeKeys]
  | cons key ks ih =>
    rw [List.length_cons] at h
    have hslot : slot < buffer.length := by omega
    have hlen : slot + 1 + ks.length ≤ (buffer.set slot key).length := by
      rw [List.length_set]
      omega
    have hset : buffer.set slot key = buffer.take slot ++ key :: buffer.drop (slot + 1) := by
      rw [List.set_eq_take_append_cons_drop, if_pos hslot]
    have htake : (buffer.set slot key).take (slot + 1) = buffer.take slot ++ [key] := by
      rw [hset, List.take_append, List.take_take, List.length_take_of_le (Nat.le_of_lt hslot),
        Nat.min_eq_right (Nat.le_succ slot), Nat.add_sub_cancel_left, List.take_succ_cons,
        List.take_zero]
    have hdrop : (buffer.set slot key).drop (slot + 1 + ks.length) =
        buffer.drop (slot + (key :: ks).length) := by
      rw [List.drop_set_of_lt (by omega), List.length_cons, Nat.add_assoc, Nat.add_comm 1]
    simp only [writeKeys, writeKey, hslot, ↓reduceIte, ih hlen, htake, hdrop, List.append_assoc,
      List.singleton_append]

theorem slotAddress_eq_ok {target : Address} :
    slotAddress addr slot = .ok target ↔ target.toNat = addr.toNat + slot * keySize := by
  have htarget : target.toNat < wordSize := target.toNat_lt
  constructor
  · intro h
    unfold slotAddress at h
    cases hmul : Word.mul slot keySize with
    | error o => simp [hmul, bind, Except.bind] at h
    | ok offset =>
      obtain ⟨-, rfl⟩ := Word.mul_eq_ok.1 hmul
      cases hadd : Word.add addr.toNat (slot * keySize) with
      | error o => simp [hmul, hadd, bind, Except.bind] at h
      | ok sum =>
        obtain ⟨hlt, rfl⟩ := Word.add_eq_ok.1 hadd
        simp only [hmul, hadd, bind, Except.bind, pure, Except.pure, Except.ok.injEq] at h
        rw [← h, UInt64.toNat_ofNat_of_lt' hlt]
  · intro h
    have hmul : Word.mul slot keySize = .ok (slot * keySize) := Word.mul_eq_ok.2 ⟨by omega, rfl⟩
    have hadd : Word.add addr.toNat (slot * keySize) = .ok target.toNat :=
      Word.add_eq_ok.2 ⟨by omega, h.symm⟩
    simp only [slotAddress, hmul, bind, Except.bind, hadd, UInt64.ofNat_toNat]
    rfl

theorem writeKey_foreign_cases (a : Arena) (addr : Address) (slot : Nat) :
    (∃ fault, ∀ key, (foreign a addr).writeKey slot key =
      (.error (.copyFault fault), foreign a addr)) ∨
    ∃ off, a.base.toNat + off = addr.toNat + slot * keySize ∧ off + keySize ≤ a.size ∧
      ∀ key, (foreign a addr).writeKey slot key =
        (.ok (), foreign (a.write off (Bytes.ofWord key)) addr) := by
  have hlen : ∀ key, (Bytes.ofWord key).length = keySize := Bytes.length_ofWord
  cases htarget : slotAddress addr slot with
  | error o =>
    refine .inl ⟨⟨addr, keySize⟩, fun key => ?_⟩
    simp only [writeKey, htarget]
  | ok target =>
    have haddr := slotAddress_eq_ok.1 htarget
    cases hw : a.window target keySize with
    | error fault =>
      refine .inl ⟨fault, fun key => ?_⟩
      have hwkey : a.window target (Bytes.ofWord key).length = .error fault := (hlen key).symm ▸ hw
      simp only [writeKey, htarget, Arena.store, hwkey]
    | ok off =>
      obtain ⟨hoff, hfit⟩ := Arena.window_eq_ok.1 hw
      refine .inr ⟨off, hoff.trans haddr, hfit, fun key => ?_⟩
      have hwkey : a.window target (Bytes.ofWord key).length = .ok off := (hlen key).symm ▸ hw
      simp only [writeKey, htarget, Arena.store, hwkey, Arena.write]

/-- A list of keys that could not be delivered was interrupted at one of its slots. -/
theorem writeKeys_foreign_of_error {ks : List Key} {e : StoreError} {dst : Destination Key}
    (h : (foreign a addr).writeKeys slot ks = (.error e, dst)) :
    ∃ b k fault, dst = foreign b addr ∧ e = .copyFault fault ∧ slot ≤ k ∧ k < slot + ks.length ∧
      a.Interrupted b addr slot k fault := by
  induction ks generalizing a slot with
  | nil => cases h
  | cons key ks ih =>
    rw [List.length_cons]
    rw [writeKeys] at h
    obtain ⟨fault, hfault⟩ | ⟨off, hoff, hfit, hwrite⟩ := writeKey_foreign_cases a addr slot
    · simp only [hfault key, Prod.mk.injEq, Except.error.injEq] at h
      obtain ⟨rfl, rfl⟩ := h
      exact ⟨a, slot, fault, rfl, rfl, Nat.le_refl _, by omega,
        ⟨rfl, rfl, hfault, fun i hi => absurd rfl hi⟩⟩
    · simp only [hwrite key] at h
      obtain ⟨b, k, fault, hdst, he, hle, hlt, hint⟩ := ih h
      have hbase : b.base = a.base := hint.base.trans Arena.base_write
      have hsize : b.size = a.size := hint.size.trans Arena.size_write
      refine ⟨b, k, fault, hdst, he, by omega, by omega, hbase, hsize, hint.faults, fun i hi => ?_⟩
      have hnext : (slot + 1) * keySize = slot * keySize + keySize := Nat.succ_mul ..
      have hslots : (slot + 1) * keySize ≤ k * keySize := Nat.mul_le_mul_right _ hle
      -- a byte that differs was changed by this slot or by a later one
      by_cases hlater : b.memory[i]? = (a.write off (Bytes.ofWord key)).memory[i]?
      · rw [hlater] at hi
        have hlen : (Bytes.ofWord key).length = keySize := Bytes.length_ofWord key
        have hin : ¬ (i < off ∨ off + keySize ≤ i) := by
          rw [← hlen] at hfit ⊢
          exact fun hout => hi (a.getElem?_write_of_outside hfit hout)
        omega
      · obtain ⟨hfrom, hto⟩ := hint.spared i hlater
        rw [Arena.base_write] at hfrom hto
        omega

end Destination

end SnapshotStore
