import SnapshotStore.Data.Crc32
import SnapshotStore.Proofs.Payload.Codec

namespace SnapshotStore.Payload

open Crc32 (checksum)

variable {hash : Bytes → UInt32} {key : Key} {seq : UInt64} {len : Nat} {p : Bytes}

theorem range_eq_ok {start stop : Nat} (hle : start ≤ stop) (hin : stop ≤ p.length) :
    range p start stop = .ok ((p.drop start).take (stop - start)) :=
  if_pos ⟨hle, hin⟩

theorem range_zero {stop : Nat} (hin : stop ≤ p.length) : range p 0 stop = .ok (p.take stop) := by
  rw [range_eq_ok (Nat.zero_le stop) hin, List.drop_zero, Nat.sub_zero]

/-- Whatever the bytes are, no bound is ever missed. -/
theorem tryVerify_eq (hash : Bytes → UInt32) (key : Key) (p : Bytes) :
    tryVerify hash key p = .ok (verify hash key p) := by
  by_cases hshort : p.length < overhead
  · simp only [tryVerify, verify, hshort, ↓reduceIte]
    rfl
  · have hlong : 20 ≤ p.length := Nat.not_lt.1 hshort
    have hlen : (p.take (p.length - 4)).length = p.length - 4 :=
      List.length_take_of_le (Nat.sub_le p.length 4)
    have hfour := length_drop_four (p := p) hlong
    have hmid : Word.sub p.length 4 = .ok (p.length - 4) := Word.sub_eq_ok.2 ⟨by omega, rfl⟩
    have hdata : range p 0 (p.length - 4) = .ok (p.take (p.length - 4)) :=
      range_zero (Nat.sub_le p.length 4)
    have hcrc : range p (p.length - 4) p.length = .ok (p.drop (p.length - 4)) := by
      rw [range_eq_ok (Nat.sub_le p.length 4) (Nat.le_refl _), ← List.length_drop, List.take_length]
    have hhalf : range (p.drop (p.length - 4)) 0 4 = .ok (p.drop (p.length - 4)) := by
      rw [range_zero (Nat.le_of_eq hfour.symm), List.take_of_length_le (Nat.le_of_eq hfour)]
    have hkey : range (p.take (p.length - 4)) 0 8 = .ok ((p.take (p.length - 4)).take 8) :=
      range_zero (by omega)
    have hseq : range (p.take (p.length - 4)) 8 16 =
        .ok (((p.take (p.length - 4)).drop 8).take 8) :=
      range_eq_ok (by omega) (by omega)
    simp only [tryVerify, verify, hshort, ↓reduceIte, hmid, hdata, hcrc, hhalf, hkey, hseq,
      Except.mapError, bind, Except.bind, pure, Except.pure]
    split_ifs <;> rfl

/-- The payloads of a key and a sequence number: these two, a body that may be empty, and the
checksum of all three. -/
def IsSealed (hash : Bytes → UInt32) (key : Key) (seq : UInt64) (p : Bytes) : Prop :=
  ∃ body, p = covered key seq body ++ Bytes.ofHalf (hash (covered key seq body))

theorem IsSealed.overhead_le (h : IsSealed hash key seq p) : overhead ≤ p.length := by
  obtain ⟨body, rfl⟩ := h
  exact Nat.le_trans (Nat.le_add_right overhead body.length) (Nat.le_of_eq length_stamp.symm)

theorem isSealed_of_verify (h : verify hash key p = .ok seq) : IsSealed hash key seq p := by
  obtain ⟨hlong, hsum, hkey, hseq⟩ := verify_eq_ok.1 h
  have hcrc := Bytes.ofHalf_toHalf (length_drop_four hlong)
  rw [overhead] at hlong
  have hkeys : Bytes.ofWord key = (p.take (p.length - 4)).take 8 := by
    rw [← hkey, Bytes.ofWord_toWord]
    simp only [List.length_take]
    omega
  have hseqs : Bytes.ofWord seq = ((p.take (p.length - 4)).drop 8).take 8 := by
    rw [← hseq, Bytes.ofWord_toWord]
    simp only [List.length_take, List.length_drop]
    omega
  have hdata : covered key seq (((p.take (p.length - 4)).drop 8).drop 8) = p.take (p.length - 4) := by
    rw [covered, hkeys, hseqs, List.take_append_drop, List.take_append_drop]
  refine ⟨((p.take (p.length - 4)).drop 8).drop 8, ?_⟩
  rw [hdata, ← hsum, hcrc, List.take_append_drop]

theorem verify_eq_ok_iff_isSealed : verify hash key p = .ok seq ↔ IsSealed hash key seq p := by
  refine ⟨isSealed_of_verify, ?_⟩
  rintro ⟨body, rfl⟩
  exact verify_stamp hash key seq body

theorem tryEncode_of_le (h : max len overhead ≤ maxBuffer) :
    tryEncode hash key seq len = .ok (encode hash key seq len) := by
  rw [tryEncode, Word.capacity, if_pos h]
  rfl

theorem tryEncode_of_lt (h : maxBuffer < max len overhead) :
    tryEncode hash key seq len = .error .capacity := by
  rw [tryEncode, Word.capacity, if_neg (Nat.not_le.2 h)]
  rfl

/-- A payload that a buffer can hold is encoded at its length and read back under its own key
alone; and whatever the bytes are, a reader accepts the payloads of its key and finds a defect in
all others. -/
theorem codec_exact (hash : Bytes → UInt32) :
    (∀ key seq len, max len overhead ≤ maxBuffer →
      ∃ p, tryEncode hash key seq len = .ok p ∧ p.length = max len overhead ∧
        tryVerify hash key p = .ok (.ok seq) ∧
        ∀ other, other ≠ key → ∃ defect, tryVerify hash other p = .ok (.error defect)) ∧
    (∀ key seq len, maxBuffer < max len overhead →
      tryEncode hash key seq len = .error .capacity) ∧
    (∀ key seq p, tryVerify hash key p = .ok (.ok seq) ↔ IsSealed hash key seq p) ∧
    ∀ key p, (∀ seq, ¬ IsSealed hash key seq p) →
      ∃ defect, tryVerify hash key p = .ok (.error defect) := by
  refine ⟨fun key seq len hfits => ?_, fun _ _ _ => tryEncode_of_lt, fun key seq p => ?_,
    fun key p hnot => ?_⟩
  · refine ⟨encode hash key seq len, tryEncode_of_le hfits, length_encode hash key seq len, ?_,
      fun other hne => ⟨.misfiled key other, ?_⟩⟩
    · rw [tryVerify_eq, verify_encode]
    · rw [tryVerify_eq, encode, verify_stamp_eq, if_pos hne.symm]
  · rw [tryVerify_eq, Except.ok.injEq, verify_eq_ok_iff_isSealed]
  · rw [tryVerify_eq]
    cases hv : verify hash key p with
    | ok seq => exact absurd (isSealed_of_verify hv) (hnot seq)
    | error defect => exact ⟨defect, rfl⟩

theorem codec_exact_short :
    max 3 overhead ≤ maxBuffer ∧ (∃ p, tryEncode checksum 1 2 3 = .ok p ∧ p.length = 20) ∧
      (4 : Key) ≠ 1 ∧
      (∃ p defect, tryEncode checksum 1 2 3 = .ok p ∧ tryVerify checksum 4 p = .ok (.error defect)) ∧
      maxBuffer < max (maxBuffer + 1) overhead ∧
      tryEncode checksum 1 2 (maxBuffer + 1) = .error .capacity ∧
      (∀ seq, ¬ IsSealed checksum 1 seq [2, 3]) ∧
      ∃ defect, tryVerify checksum 1 [2, 3] = .ok (.error defect) := by
  have hfits : max 3 overhead ≤ maxBuffer := by decide
  have hlong : maxBuffer < max (maxBuffer + 1) overhead := by decide
  have hnot : ∀ seq, ¬ IsSealed checksum 1 seq [2, 3] :=
    fun seq h => absurd h.overhead_le (by decide)
  obtain ⟨hencode, htoo_long, -, hdefects⟩ := codec_exact checksum
  obtain ⟨p, hp, hlen, -, hother⟩ := hencode 1 2 3 hfits
  obtain ⟨defect, hdefect⟩ := hother 4 (by decide)
  exact ⟨hfits, ⟨p, hp, hlen⟩, by decide, ⟨p, defect, hp, hdefect⟩, hlong,
    htoo_long 1 2 (maxBuffer + 1) hlong, hnot, hdefects 1 [2, 3] hnot⟩

/-- Half of the address space is too much for one buffer, whatever the hash is. -/
theorem tryEncode_half : 0x8000000000000000 < wordSize ∧
    ∀ hash, ¬ ∃ p, tryEncode hash 1 2 0x8000000000000000 = .ok p ∧
      p.length = max 0x8000000000000000 overhead := by
  refine ⟨by decide, ?_⟩
  rintro hash ⟨p, hp, -⟩
  rw [tryEncode_of_lt (by decide)] at hp
  cases hp

end SnapshotStore.Payload
