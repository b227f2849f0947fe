import SnapshotStore.Proofs.Data.Crc32
import SnapshotStore.Proofs.Payload.Codec

namespace SnapshotStore.Payload

open Crc32 (checksum)

variable {p q : Bytes} {start : Nat} {key : Key} {seq : UInt64}

/-- All positions where two byte strings differ lie among four neighbours. -/
def DifferWithin (start : Nat) (p q : Bytes) : Prop :=
  ∀ i, p[i]? ≠ q[i]? → start ≤ i ∧ i < start + 4

theorem DifferWithin.take_eq (h : DifferWithin start p q) : p.take start = q.take start := by
  apply List.ext_getElem?
  intro i
  by_cases hi : i < start
  · rw [List.getElem?_take_of_lt hi, List.getElem?_take_of_lt hi]
    by_contra hne
    exact absurd (h i hne).1 (Nat.not_le.2 hi)
  · rw [List.getElem?_take, List.getElem?_take, if_neg hi, if_neg hi]

theorem DifferWithin.drop_eq (h : DifferWithin start p q) :
    p.drop (start + 4) = q.drop (start + 4) := by
  apply List.ext_getElem?
  intro i
  rw [List.getElem?_drop, List.getElem?_drop]
  by_contra hne
  exact absurd (h _ hne).2 (by omega)

theorem split_window (p : Bytes) (start : Nat) :
    p = p.take start ++ ((p.drop start).take 4 ++ p.drop (start + 4)) := by
  rw [← List.drop_drop, List.take_append_drop, List.take_append_drop]

theorem eq_of_register_eq_of_differWithin {r : UInt32} (h : DifferWithin start p q)
    (hlen : q.length = p.length) (hreg : Crc32.register r p = Crc32.register r q) : p = q := by
  have hwindow : (p.drop start).take 4 = (q.drop start).take 4 := by
    rw [split_window p start, split_window q start, h.take_eq, h.drop_eq] at hreg
    simp only [Crc32.register_append] at hreg
    refine Crc32.eq_of_register_eq ?_ (List.length_take_le 4 _) (Crc32.register_injective _ hreg)
    simp [hlen]
  calc p = p.take start ++ ((p.drop start).take 4 ++ p.drop (start + 4)) := split_window p start
    _ = q.take start ++ ((q.drop start).take 4 ++ q.drop (start + 4)) := by
      rw [h.take_eq, hwindow, h.drop_eq]
    _ = q := (split_window q start).symm

/-- A sound payload is long enough, and the register of all its bytes ends at the residue. -/
theorem register_of_verify (h : verify checksum key p = .ok seq) :
    overhead ≤ p.length ∧ Crc32.register 0xFFFFFFFF p = Crc32.residue := by
  obtain ⟨hlong, hsum, -, -⟩ := verify_eq_ok.1 h
  refine ⟨hlong, ?_⟩
  rw [← List.take_append_drop (p.length - 4) p]
  exact (Crc32.register_eq_residue_iff (length_drop_four hlong)).2 hsum

/-- Encoded payloads are sound, and no sound payload stays sound under any key when some of four
neighbouring bytes change, wherever they are. -/
theorem burst_detected :
    (∀ key seq len, verify checksum key (encode checksum key seq len) = .ok seq) ∧
    ∀ (p q : Bytes) (start : Nat), (∃ key seq, verify checksum key p = .ok seq) →
      q.length = p.length → q ≠ p → DifferWithin start p q →
      ∀ key, ∃ defect, verify checksum key q = .error defect := by
  refine ⟨verify_encode checksum, ?_⟩
  rintro p q start ⟨owner, seq, hp⟩ hlen hne hburst key
  cases hq : verify checksum key q with
  | error defect => exact ⟨defect, rfl⟩
  | ok seq' =>
    have hreg := (register_of_verify hp).2.trans (register_of_verify hq).2.symm
    exact absurd (eq_of_register_eq_of_differWithin hburst hlen hreg).symm hne

/-- The last byte of the sequence number and the second of the checksum are lost. -/
def spoiled : Bytes := ((encode checksum 1 2 0).set 15 255).set 17 255

theorem burst_detected_spoiled :
    (∃ key seq, verify checksum key (encode checksum 1 2 0) = .ok seq) ∧
      spoiled.length = (encode checksum 1 2 0).length ∧
      spoiled ≠ encode checksum 1 2 0 ∧ DifferWithin 14 (encode checksum 1 2 0) spoiled ∧
      ∀ key, ∃ defect, verify checksum key spoiled = .error defect := by
  have hsound : ∃ key seq, verify checksum key (encode checksum 1 2 0) = .ok seq :=
    ⟨1, 2, burst_detected.1 1 2 0⟩
  have hlen : spoiled.length = (encode checksum 1 2 0).length := by simp [spoiled]
  have hne : spoiled ≠ encode checksum 1 2 0 := by decide +kernel
  have hburst : DifferWithin 14 (encode checksum 1 2 0) spoiled := by
    intro i hi
    by_contra hout
    refine hi ?_
    rw [spoiled, List.getElem?_set_ne (by omega), List.getElem?_set_ne (by omega)]
  exact ⟨hsound, hlen, hne, hburst, burst_detected.2 _ spoiled 14 hsound hlen hne hburst⟩

end SnapshotStore.Payload
