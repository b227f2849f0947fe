import Mathlib.Data.List.Basic
import SnapshotStore.Proofs.Data.Bytes
import SnapshotStore.Transfer

namespace SnapshotStore

namespace Arena

variable {a : Arena} {off other len : Nat} {bs : Bytes}

def slice (a : Arena) (off len : Nat) : Bytes := (a.memory.extract off (off + len)).toList

def write (a : Arena) (off : Nat) (bs : Bytes) : Arena :=
  { a with memory := overwrite a.memory off bs, size_lt := by simpa using a.size_lt }

@[simp] theorem base_write : (a.write off bs).base = a.base := rfl

@[simp] theorem size_write : (a.write off bs).size = a.size := size_overwrite ..

theorem overwrite_append (memory : Array UInt8) (pos : Nat) (bs cs : Bytes) :
    overwrite memory pos (bs ++ cs) = overwrite (overwrite memory pos bs) (pos + bs.length) cs := by
  induction bs generalizing memory pos with
  | nil => rfl
  | cons b bs ih =>
    rw [List.cons_append, overwrite, overwrite, ih, List.length_cons, Nat.add_assoc pos 1,
      Nat.add_comm 1]

theorem write_append (a : Arena) (off : Nat) (bs cs : Bytes) :
    a.write off (bs ++ cs) = (a.write off bs).write (off + bs.length) cs := by
  simp only [write, overwrite_append]

theorem getElem?_overwrite (memory : Array UInt8) (pos : Nat) (bs : Bytes)
    (h : pos + bs.length ≤ memory.size) (i : Nat) :
    (overwrite memory pos bs)[i]? =
      if pos ≤ i ∧ i < pos + bs.length then bs[i - pos]? else memory[i]? := by
  induction bs generalizing memory pos with
  | nil =>
    have hout : ¬ (pos ≤ i ∧ i < pos + ([] : Bytes).length) := by
      rw [List.length_nil]
      omega
    rw [if_neg hout, overwrite]
  | cons b bs ih =>
    rw [List.length_cons] at h ⊢
    rw [overwrite, ih _ _ (by rw [Array.size_setIfInBounds]; omega), Array.getElem?_setIfInBounds]
    grind

theorem getElem?_write_of_outside (h : off + bs.length ≤ a.size) {i : Nat}
    (hi : i < off ∨ off + bs.length ≤ i) : (a.write off bs).memory[i]? = a.memory[i]? := by
  rw [write, getElem?_overwrite _ _ _ h, if_neg (by omega)]

theorem length_slice (h : off + len ≤ a.size) : (a.slice off len).length = len := by
  have hsize : off + len ≤ a.memory.size := h
  simp only [slice, Array.length_toList, Array.size_extract]
  omega

theorem getElem?_slice (h : off + len ≤ a.size) {i : Nat} (hi : i < len) :
    (a.slice off len)[i]? = a.memory[off + i]? := by
  have hsize : off + len ≤ a.memory.size := h
  rw [slice, Array.getElem?_toList, Array.getElem?_extract, if_pos (by omega)]

theorem slice_write_self (off : Nat) (bs : Bytes) (h : off + bs.length ≤ a.size) :
    (a.write off bs).slice off bs.length = bs := by
  have hsize : off + bs.length ≤ (a.write off bs).size := by rwa [size_write]
  apply List.ext_getElem?
  intro i
  by_cases hi : i < bs.length
  · rw [getElem?_slice hsize hi, write, getElem?_overwrite _ _ _ h, if_pos (by omega),
      Nat.add_sub_cancel_left]
  · rw [List.getElem?_eq_none (by rw [length_slice hsize]; omega), List.getElem?_eq_none (by omega)]

theorem slice_write_of_disjoint (h : off + bs.length ≤ a.size) (hlen : other + len ≤ a.size)
    (hd : other + len ≤ off ∨ off + bs.length ≤ other) :
    (a.write off bs).slice other len = a.slice other len := by
  have hsize : other + len ≤ (a.write off bs).size := by rwa [size_write]
  apply List.ext_getElem?
  intro i
  by_cases hi : i < len
  · rw [getElem?_slice hsize hi, getElem?_slice hlen hi, write, getElem?_overwrite _ _ _ h,
      if_neg (by omega)]
  · rw [List.getElem?_eq_none (by rw [length_slice hsize]; omega),
      List.getElem?_eq_none (by rw [length_slice hlen]; omega)]

theorem toNat_add_ofNat (base : Address) (off : Nat) (h : base.toNat + off < wordSize) :
    (base + UInt64.ofNat off).toNat = base.toNat + off := by
  simp only [wordSize] at h
  simp only [UInt64.toNat_add, UInt64.toNat_ofNat']
  omega

/-- A window is mapped just if it lies between the ends of the memory. -/
theorem window_eq_ok {addr : Address} {start : Nat} :
    a.window addr len = .ok start ↔
      a.base.toNat + start = addr.toNat ∧ start + len ≤ a.size := by
  have hsize : a.size < wordSize := a.size_lt
  unfold window
  by_cases hlt : addr < a.base
  · have hnat := UInt64.lt_iff_toNat_lt.1 hlt
    simp only [hlt, ↓reduceIte, reduceCtorEq, false_iff]
    omega
  · have hle : a.base.toNat ≤ addr.toNat := by
      rw [← UInt64.le_iff_toNat_le]
      exact UInt64.not_lt.1 hlt
    have hsub : (addr - a.base).toNat = addr.toNat - a.base.toNat :=
      UInt64.toNat_sub_of_le _ _ (UInt64.not_lt.1 hlt)
    simp only [hlt, ↓reduceIte, hsub, Word.add]
    by_cases hadd : addr.toNat - a.base.toNat + len < wordSize
    · simp only [hadd, ↓reduceIte]
      by_cases hfit : addr.toNat - a.base.toNat + len ≤ a.size
      · simp only [hfit, ↓reduceIte, Except.ok.injEq]
        omega
      · simp only [hfit, ↓reduceIte, reduceCtorEq, false_iff]
        omega
    · simp only [hadd, ↓reduceIte, reduceCtorEq, false_iff]
      omega

theorem length_of_load {addr : Address} (h : a.load addr len = .ok bs) : bs.length = len := by
  unfold load at h
  cases hw : a.window addr len with
  | error fault => simp [hw] at h
  | ok start =>
    obtain ⟨-, hle⟩ := window_eq_ok.1 hw
    simp only [hw, Except.ok.injEq] at h
    exact h ▸ length_slice hle

theorem window_add (off len : Nat) (hfit : a.base.toNat + a.size < wordSize)
    (hlen : off + len ≤ a.size) :
    a.window (a.base + UInt64.ofNat off) len = .ok off :=
  window_eq_ok.2 ⟨(toNat_add_ofNat a.base off (by omega)).symm, hlen⟩

theorem load_add (off len : Nat) (hfit : a.base.toNat + a.size < wordSize)
    (hlen : off + len ≤ a.size) :
    a.load (a.base + UInt64.ofNat off) len = .ok (a.slice off len) := by
  simp only [load, window_add _ _ hfit hlen, slice]

theorem store_add (off : Nat) (bs : Bytes) (hfit : a.base.toNat + a.size < wordSize)
    (hlen : off + bs.length ≤ a.size) :
    a.store (a.base + UInt64.ofNat off) bs = (.ok (), a.write off bs) := by
  simp only [store, window_add _ _ hfit hlen, write]

theorem loadKeys_add (off count : Nat) (hfit : a.base.toNat + a.size < wordSize)
    (hlen : off + count * keySize ≤ a.size) :
    a.loadKeys (a.base + UInt64.ofNat off) count =
      .ok (Bytes.words count (a.slice off (count * keySize))) := by
  have hmul : Word.mul count keySize = .ok (count * keySize) :=
    Word.mul_eq_ok.2 ⟨by omega, rfl⟩
  simp only [loadKeys, hmul, load_add _ _ hfit hlen, Except.map]

end Arena

theorem length_flatMap_ofWord (ks : List Key) :
    (ks.flatMap Bytes.ofWord).length = ks.length * keySize := by
  induction ks with
  | nil => rfl
  | cons k ks ih =>
    rw [List.flatMap_cons, List.length_append, ih, Bytes.length_ofWord, List.length_cons, keySize]
    omega

theorem words_flatMap_ofWord (ks : List Key) :
    Bytes.words ks.length (ks.flatMap Bytes.ofWord) = ks := by
  induction ks with
  | nil => rfl
  | cons k ks ih =>
    rw [List.length_cons, Bytes.words, List.flatMap_cons,
      List.take_left' (Bytes.length_ofWord k), List.drop_left' (Bytes.length_ofWord k),
      Bytes.toWord_ofWord, ih]

namespace Destination

variable {a : Arena}

theorem writeBytes_foreign (off : Nat) (bs : Bytes) (hfit : a.base.toNat + a.size < wordSize)
    (hlen : off + bs.length ≤ a.size) :
    (foreign a (a.base + UInt64.ofNat off)).writeBytes bs =
      (.ok (), foreign (a.write off bs) (a.base + UInt64.ofNat off)) := by
  simp only [writeBytes, ensureRoom, Arena.store_add _ _ hfit hlen]

theorem slotAddress_add (base : Address) (off slot : Nat)
    (h : base.toNat + (off + slot * keySize) < wordSize) :
    slotAddress (base + UInt64.ofNat off) slot =
      .ok (base + UInt64.ofNat (off + slot * keySize)) := by
  have hsum := Arena.toNat_add_ofNat base off (by omega)
  have hmul : Word.mul slot keySize = .ok (slot * keySize) := Word.mul_eq_ok.2 ⟨by omega, rfl⟩
  have hadd : Word.add (base.toNat + off) (slot * keySize) =
      .ok (base.toNat + off + slot * keySize) := Word.add_eq_ok.2 ⟨by omega, rfl⟩
  have haddr : UInt64.ofNat (base.toNat + off + slot * keySize) =
      base + UInt64.ofNat (off + slot * keySize) := by
    rw [Nat.add_assoc, UInt64.ofNat_add, UInt64.ofNat_toNat]
  rw [slotAddress, hmul, hsum]
  simp only [bind, Except.bind, hadd, haddr]
  rfl

theorem writeKeys_foreign (off : Nat) (ks : List Key) (slot : Nat)
    (hfit : a.base.toNat + a.size < wordSize)
    (hlen : off + (slot + ks.length) * keySize ≤ a.size) :
    (foreign a (a.base + UInt64.ofNat off)).writeKeys slot ks =
      (.ok (), foreign (a.write (off + slot * keySize) (ks.flatMap Bytes.ofWord))
        (a.base + UInt64.ofNat off)) := by
  induction ks generalizing a slot with
  | nil => rfl
  | cons k ks ih =>
    rw [List.length_cons, Nat.add_mul, Nat.succ_mul] at hlen
    have hk : (Bytes.ofWord k).length = keySize := Bytes.length_ofWord k
    have hstore := Arena.store_add (off + slot * keySize) (Bytes.ofWord k) hfit (by omega)
    have hwrite : (foreign a (a.base + UInt64.ofNat off)).writeKey slot k =
        (.ok (), foreign (a.write (off + slot * keySize) (Bytes.ofWord k))
          (a.base + UInt64.ofNat off)) := by
      simp only [writeKey, slotAddress_add a.base off slot (by omega),
        hstore]
    have hrest := ih (a := a.write (off + slot * keySize) (Bytes.ofWord k)) (slot + 1)
      (by simpa using hfit) (by rw [Arena.size_write, Nat.add_mul, Nat.succ_mul]; omega)
    rw [Arena.base_write] at hrest
    rw [writeKeys]
    simp only [hwrite, hrest]
    rw [List.flatMap_cons, Arena.write_append, hk, Nat.succ_mul, Nat.add_assoc]

end Destination

end SnapshotStore
