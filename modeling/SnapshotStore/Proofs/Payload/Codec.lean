import Mathlib.Data.List.Basic
import SnapshotStore.Payload
import SnapshotStore.Proofs.Data.Bytes

namespace SnapshotStore.Payload

variable {hash : Bytes → UInt32} {key : Key} {seq : UInt64} {body p : Bytes}

def covered (key : Key) (seq : UInt64) (body : Bytes) : Bytes :=
  Bytes.ofWord key ++ (Bytes.ofWord seq ++ body)

theorem length_covered : (covered key seq body).length = 16 + body.length := by
  simp [covered]
  omega

theorem length_stamp : (stamp hash key seq body).length = overhead + body.length := by
  change (covered key seq body ++ Bytes.ofHalf _).length = _
  rw [List.length_append, length_covered, Bytes.length_ofHalf, overhead]
  omega

theorem length_encode (hash : Bytes → UInt32) (key : Key) (seq : UInt64) (len : Nat) :
    (encode hash key seq len).length = max len overhead := by
  rw [encode, length_stamp, pattern, List.length_map, List.length_range]
  omega

theorem verify_stamp_eq (hash : Bytes → UInt32) (key owner : Key) (seq : UInt64) (body : Bytes) :
    verify hash key (stamp hash owner seq body) =
      if owner ≠ key then .error (.misfiled owner key) else .ok seq := by
  have hlen : (stamp hash owner seq body).length - 4 = (covered owner seq body).length := by
    rw [length_stamp, length_covered, overhead]
    omega
  have hlong : ¬ (stamp hash owner seq body).length < overhead := by
    rw [length_stamp]
    omega
  have hdata : (stamp hash owner seq body).take (covered owner seq body).length =
      covered owner seq body := List.take_left
  have hsum : (stamp hash owner seq body).drop (covered owner seq body).length =
      Bytes.ofHalf (hash (covered owner seq body)) := List.drop_left
  have hkey : (covered owner seq body).take 8 = Bytes.ofWord owner :=
    List.take_left' (Bytes.length_ofWord owner)
  have hseq : ((covered owner seq body).drop 8).take 8 = Bytes.ofWord seq := by
    rw [covered, List.drop_left' (Bytes.length_ofWord owner),
      List.take_left' (Bytes.length_ofWord seq)]
  simp only [verify, hlong, hlen, hdata, hsum, hkey, hseq, Bytes.toHalf_ofHalf, Bytes.toWord_ofWord,
    ne_eq, not_true_eq_false, ↓reduceIte]

theorem verify_stamp (hash : Bytes → UInt32) (key : Key) (seq : UInt64) (body : Bytes) :
    verify hash key (stamp hash key seq body) = .ok seq := by
  rw [verify_stamp_eq, if_neg (not_not.2 rfl)]

theorem verify_encode (hash : Bytes → UInt32) (key : Key) (seq : UInt64) (len : Nat) :
    verify hash key (encode hash key seq len) = .ok seq :=
  verify_stamp hash key seq _

theorem verify_eq_ok : verify hash key p = .ok seq ↔
    overhead ≤ p.length ∧
      Bytes.toHalf (p.drop (p.length - 4)) = hash (p.take (p.length - 4)) ∧
      Bytes.toWord ((p.take (p.length - 4)).take 8) = key ∧
      Bytes.toWord (((p.take (p.length - 4)).drop 8).take 8) = seq := by
  simp only [verify]
  split_ifs with hshort hsum hkey
  · simp only [false_iff]
    exact fun h => Nat.not_le.2 hshort h.1
  · simp only [false_iff]
    exact fun h => hsum h.2.1
  · simp only [false_iff]
    exact fun h => hkey h.2.2.1
  · rw [Except.ok.injEq]
    exact ⟨fun h => ⟨Nat.not_lt.1 hshort, not_not.1 hsum, not_not.1 hkey, h⟩, fun h => h.2.2.2⟩

theorem length_drop_four (h : overhead ≤ p.length) : (p.drop (p.length - 4)).length = 4 := by
  rw [overhead] at h
  rw [List.length_drop]
  omega

end SnapshotStore.Payload
