import Mathlib.Algebra.Group.Nat.Defs
import SnapshotStore.Data.Bytes

namespace SnapshotStore.Bytes

@[simp] theorem length_ofNat (n x : Nat) : (ofNat n x).length = n := by
  induction n generalizing x with
  | zero => rfl
  | succ n ih => simp [ofNat, ih]

theorem toNat_ofNat (n x : Nat) : toNat (ofNat n x) = x % 256 ^ n := by
  induction n generalizing x with
  | zero => simp [ofNat, toNat, Nat.mod_one]
  | succ n ih =>
    rw [ofNat, toNat, ih, UInt8.toNat_ofNat', Nat.pow_succ' (m := 256), Nat.mod_mul]

theorem toNat_lt (bs : Bytes) : toNat bs < 256 ^ bs.length := by
  induction bs with
  | nil => simp [toNat]
  | cons b bs ih =>
    have hb := b.toNat_lt
    rw [toNat, List.length_cons, Nat.pow_succ]
    omega

theorem ofNat_toNat (bs : Bytes) : ofNat bs.length (toNat bs) = bs := by
  induction bs with
  | nil => rfl
  | cons b bs ih =>
    have hb := b.toNat_lt
    have hd : (b.toNat + 256 * toNat bs) / 256 = toNat bs := by omega
    have hm : UInt8.ofNat (b.toNat + 256 * toNat bs) = b := by
      apply UInt8.toNat_inj.1
      rw [UInt8.toNat_ofNat']
      omega
    rw [List.length_cons, toNat, ofNat, hd, hm, ih]

@[simp] theorem length_ofWord (x : UInt64) : (ofWord x).length = 8 := length_ofNat _ _

@[simp] theorem length_ofHalf (x : UInt32) : (ofHalf x).length = 4 := length_ofNat _ _

theorem toWord_ofWord (x : UInt64) : toWord (ofWord x) = x := by
  rw [toWord, ofWord, toNat_ofNat, Nat.mod_eq_of_lt (by simpa using x.toNat_lt)]
  simp

theorem toHalf_ofHalf (x : UInt32) : toHalf (ofHalf x) = x := by
  rw [toHalf, ofHalf, toNat_ofNat, Nat.mod_eq_of_lt (by simpa using x.toNat_lt)]
  simp

theorem ofWord_toWord {bs : Bytes} (h : bs.length = 8) : ofWord (toWord bs) = bs := by
  have hlt := toNat_lt bs
  rw [h] at hlt
  rw [ofWord, toWord, UInt64.toNat_ofNat', Nat.mod_eq_of_lt (by simpa using hlt), ← h, ofNat_toNat]

theorem ofHalf_toHalf {bs : Bytes} (h : bs.length = 4) : ofHalf (toHalf bs) = bs := by
  have hlt := toNat_lt bs
  rw [h] at hlt
  rw [ofHalf, toHalf, UInt32.toNat_ofNat', Nat.mod_eq_of_lt (by simpa using hlt), ← h, ofNat_toNat]

end SnapshotStore.Bytes
