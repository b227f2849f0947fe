import Mathlib.Data.UInt
import SnapshotStore.Data.Crc32
import SnapshotStore.Proofs.Data.Bytes

namespace SnapshotStore.Crc32

open Bytes (toHalf toNat)

theorem and_one_toNat (r : UInt32) : (r &&& 1).toNat = r.toNat % 2 := by
  simp

theorem shiftRight_one_toNat (r : UInt32) : (r >>> 1).toNat = r.toNat / 2 := by
  simp [UInt32.toNat_shiftRight, Nat.shiftRight_eq_div_pow]

theorem and_one_cases (r : UInt32) : r &&& 1 = 0 ∨ r &&& 1 = 1 := by
  obtain h | h := Nat.mod_two_eq_zero_or_one r.toNat
  · exact .inl (UInt32.toNat_inj.1 ((and_one_toNat r).trans h))
  · exact .inr (UInt32.toNat_inj.1 ((and_one_toNat r).trans h))

theorem stepBit_of_even {r : UInt32} (h : r &&& 1 = 0) : stepBit r = r >>> 1 := by
  simp [stepBit, h]

theorem stepBit_of_odd {r : UInt32} (h : r &&& 1 = 1) : stepBit r = (r >>> 1) ^^^ generator := by
  simp [stepBit, h]

theorem and_one_xor (a b : UInt32) : (a ^^^ b) &&& 1 = (a &&& 1) ^^^ (b &&& 1) := by
  apply UInt32.toNat_inj.1
  rw [and_one_toNat, UInt32.toNat_xor, UInt32.toNat_xor, and_one_toNat, and_one_toNat]
  exact Nat.xor_mod_two_pow (n := 1)

/-- Division by `x` is linear: the register of a sum is the sum of the registers. -/
theorem stepBit_xor (a b : UInt32) : stepBit (a ^^^ b) = stepBit a ^^^ stepBit b := by
  have hab := and_one_xor a b
  have hshift : (a ^^^ b) >>> 1 = (a >>> 1) ^^^ (b >>> 1) := UInt32.shiftRight_xor
  rcases and_one_cases a with ha | ha <;> rcases and_one_cases b with hb | hb <;>
    rw [ha, hb] at hab
  · rw [stepBit_of_even hab, stepBit_of_even ha, stepBit_of_even hb, hshift]
  · rw [stepBit_of_odd hab, stepBit_of_even ha, stepBit_of_odd hb, hshift, UInt32.xor_assoc]
  · rw [stepBit_of_odd hab, stepBit_of_odd ha, stepBit_of_even hb, hshift]
    ac_rfl
  · rw [stepBit_of_even hab, stepBit_of_odd ha, stepBit_of_odd hb, hshift]
    calc (a >>> 1) ^^^ (b >>> 1)
        = (a >>> 1) ^^^ (b >>> 1) ^^^ (generator ^^^ generator) := by simp
      _ = (a >>> 1) ^^^ generator ^^^ ((b >>> 1) ^^^ generator) := by ac_rfl

theorem eq_zero_of_stepBit {r : UInt32} (h : stepBit r = 0) : r = 0 := by
  have hlt := r.toNat_lt
  obtain hr | hr := and_one_cases r
  · rw [stepBit_of_even hr] at h
    have hhalf := (shiftRight_one_toNat r).symm.trans (congrArg UInt32.toNat h)
    have hlow := (and_one_toNat r).symm.trans (congrArg UInt32.toNat hr)
    apply UInt32.toNat_inj.1
    simp only [UInt32.toNat_zero] at hhalf hlow ⊢
    omega
  · rw [stepBit_of_odd hr, UInt32.xor_eq_zero_iff] at h
    have hhalf := (shiftRight_one_toNat r).symm.trans (congrArg UInt32.toNat h)
    have hgen : generator.toNat = 0xEDB88320 := rfl
    omega

theorem stepBits_xor (n : Nat) (a b : UInt32) :
    stepBits n (a ^^^ b) = stepBits n a ^^^ stepBits n b := by
  induction n generalizing a b with
  | zero => rfl
  | succ n ih => rw [stepBits, stepBits, stepBits, stepBit_xor, ih]

theorem eq_zero_of_stepBits {n : Nat} {r : UInt32} (h : stepBits n r = 0) : r = 0 := by
  induction n generalizing r with
  | zero => exact h
  | succ n ih => exact eq_zero_of_stepBit (ih h)

theorem stepBits_injective (n : Nat) : Function.Injective (stepBits n) := by
  intro a b h
  apply UInt32.xor_eq_zero_iff.1
  apply eq_zero_of_stepBits (n := n)
  rw [stepBits_xor, h, UInt32.xor_self]

theorem stepBits_add (m n : Nat) (r : UInt32) : stepBits (m + n) r = stepBits n (stepBits m r) := by
  induction m generalizing r with
  | zero => rw [Nat.zero_add]; rfl
  | succ m ih => rw [Nat.succ_add, stepBits, ih, stepBits]

theorem stepBits_toNat {n : Nat} {r : UInt32} (h : r.toNat % 2 ^ n = 0) :
    (stepBits n r).toNat = r.toNat / 2 ^ n := by
  induction n generalizing r with
  | zero => simp [stepBits]
  | succ n ih =>
    rw [Nat.pow_succ', Nat.mod_mul] at h
    have hlow : r &&& 1 = 0 := by
      apply UInt32.toNat_inj.1
      rw [and_one_toNat]
      exact (Nat.add_eq_zero_iff.1 h).1
    have hhigh : (r >>> 1).toNat % 2 ^ n = 0 := by
      rw [shiftRight_one_toNat]
      have := (Nat.add_eq_zero_iff.1 h).2
      omega
    rw [stepBits, stepBit_of_even hlow, ih hhigh, shiftRight_one_toNat, Nat.div_div_eq_div_mul,
      Nat.pow_succ']

theorem add_eq_xor {b : Nat} (hb : b < 2 ^ 8) (t : Nat) : b + 256 * t = b ^^^ (256 * t) := by
  apply Nat.eq_of_testBit_eq
  intro i
  have h256 : 256 * t = 2 ^ 8 * t + 0 := rfl
  rw [Nat.testBit_xor, Nat.add_comm, show 256 * t + b = 2 ^ 8 * t + b from rfl,
    Nat.testBit_two_pow_mul_add t hb, h256, Nat.testBit_two_pow_mul_add t (Nat.two_pow_pos 8)]
  by_cases hi : i < 8
  · simp [hi]
  · have hpow : 2 ^ 8 ≤ 2 ^ i := Nat.pow_le_pow_right (by decide) (Nat.not_lt.1 hi)
    have hbi : b.testBit i = false := Nat.testBit_lt_two_pow (Nat.lt_of_lt_of_le hb hpow)
    simp [hi, hbi]

theorem toHalf_cons (b : UInt8) (bs : Bytes) :
    toHalf (b :: bs) = b.toUInt32 ^^^ UInt32.ofNat (256 * toNat bs) := by
  rw [toHalf, Bytes.toNat, add_eq_xor b.toNat_lt, UInt32.ofNat_xor]
  congr 1
  exact UInt32.toNat_inj.1 (by simp)

theorem stepBits_ofNat {t : Nat} (h : t < 2 ^ 24) :
    stepBits 8 (UInt32.ofNat (256 * t)) = UInt32.ofNat t := by
  have hlt : 256 * t < 2 ^ 32 := by omega
  have hof : (UInt32.ofNat (256 * t)).toNat = 256 * t := by
    rw [UInt32.toNat_ofNat', Nat.mod_eq_of_lt hlt]
  apply UInt32.toNat_inj.1
  rw [stepBits_toNat (by rw [hof]; omega), hof, UInt32.toNat_ofNat', Nat.mod_eq_of_lt (by omega)]
  omega

/-- Up to four bytes can be added to the register at once. -/
theorem register_eq_stepBits {r : UInt32} {bs : Bytes} (h : bs.length ≤ 4) :
    register r bs = stepBits (8 * bs.length) (r ^^^ toHalf bs) := by
  induction bs generalizing r with
  | nil => simp [register, toHalf, Bytes.toNat, stepBits]
  | cons b bs ih =>
    rw [List.length_cons] at h
    have hlt : toNat bs < 2 ^ 24 := by
      have hpow : 256 ^ bs.length ≤ 256 ^ 3 := Nat.pow_le_pow_right (by decide) (by omega)
      have := Bytes.toNat_lt bs
      omega
    have hcons : register r (b :: bs) = register (stepByte r b) bs := rfl
    rw [hcons, ih (by omega), List.length_cons, Nat.mul_succ, Nat.add_comm, stepBits_add,
      toHalf_cons, ← UInt32.xor_assoc, stepBits_xor 8, stepBits_ofNat hlt, stepByte, toHalf]

theorem register_injective (bs : Bytes) : Function.Injective fun r => register r bs := by
  induction bs with
  | nil => exact fun a b h => h
  | cons c bs ih =>
    intro a b h
    have hstep : stepByte a c = stepByte b c := ih h
    exact (UInt32.xor_left_inj _).1 (stepBits_injective 8 hstep)

theorem eq_of_register_eq {r : UInt32} {as bs : Bytes} (hlen : as.length = bs.length)
    (has : as.length ≤ 4) (h : register r as = register r bs) : as = bs := by
  rw [register_eq_stepBits has, register_eq_stepBits (hlen ▸ has), hlen] at h
  have hhalf : toHalf as = toHalf bs := (UInt32.xor_right_inj r).1 (stepBits_injective _ h)
  have hnum : toNat as = toNat bs := by
    have hpow : 256 ^ bs.length ≤ 256 ^ 4 := Nat.pow_le_pow_right (by decide) (hlen ▸ has)
    have ha := Bytes.toNat_lt as
    have hb := Bytes.toNat_lt bs
    rw [hlen] at ha
    have hmod := congrArg UInt32.toNat hhalf
    rw [toHalf, toHalf, UInt32.toNat_ofNat', UInt32.toNat_ofNat', Nat.mod_eq_of_lt (by omega),
      Nat.mod_eq_of_lt (by omega)] at hmod
    exact hmod
  rw [← Bytes.ofNat_toNat as, ← Bytes.ofNat_toNat bs, hlen, hnum]

/-- What the register holds after data and the checksum of the data, whatever the data. -/
def residue : UInt32 := stepBits 32 0xFFFFFFFF

/-- Four bytes are the checksum of what stands before them if the register ends at the residue. -/
theorem register_eq_residue_iff {data sum : Bytes} (h : sum.length = 4) :
    register 0xFFFFFFFF (data ++ sum) = residue ↔ toHalf sum = checksum data := by
  rw [register_append, register_eq_stepBits (Nat.le_of_eq h), h, residue, checksum]
  constructor
  · intro hs
    have hx := stepBits_injective 32 hs
    calc toHalf sum
        = register 0xFFFFFFFF data ^^^ (register 0xFFFFFFFF data ^^^ toHalf sum) := by
          rw [← UInt32.xor_assoc, UInt32.xor_self, UInt32.zero_xor]
      _ = register 0xFFFFFFFF data ^^^ 0xFFFFFFFF := by rw [hx]
  · intro hs
    rw [hs, ← UInt32.xor_assoc, UInt32.xor_self, UInt32.zero_xor]

end SnapshotStore.Crc32
