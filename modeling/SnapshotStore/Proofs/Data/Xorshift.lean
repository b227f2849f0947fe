import Mathlib.Algebra.Group.Nat.Defs
import Mathlib.Logic.Function.Iterate
import SnapshotStore.Data.Xorshift

namespace SnapshotStore.Xorshift

variable {f : UInt64 → UInt64} {k : UInt64} {n : Nat}

/-- A word and a map of it can be told from their sum, if the map respects sums and comes to nothing
when it is repeated often enough: adding the map twice over adds its square. -/
theorem bijective_xor_self (hadd : ∀ x y, f (x ^^^ y) = f x ^^^ f y)
    (hzero : ∀ x, f^[2 ^ n] x = 0) : Function.Bijective fun x => x ^^^ f x := by
  induction n generalizing f with
  | zero =>
    have hid : (fun x => x ^^^ f x) = id := by
      funext x
      have hx : f x = 0 := hzero x
      rw [hx, UInt64.xor_zero, id]
    rw [hid]
    exact Function.bijective_id
  | succ n ih =>
    have htwice : (fun x => x ^^^ f x) ∘ (fun x => x ^^^ f x) = fun x => x ^^^ f^[2] x := by
      funext x
      calc (x ^^^ f x) ^^^ f (x ^^^ f x)
          = (x ^^^ f (f x)) ^^^ (f x ^^^ f x) := by rw [hadd]; ac_rfl
        _ = x ^^^ f^[2] x := by rw [UInt64.xor_self, UInt64.xor_zero]; rfl
    have hadd₂ : ∀ x y, f^[2] (x ^^^ y) = f^[2] x ^^^ f^[2] y := fun x y =>
      (congrArg f (hadd x y)).trans (hadd _ _)
    have hbij : Function.Bijective fun x => x ^^^ f^[2] x := ih hadd₂ fun x => by
      rw [← Function.iterate_mul, ← Nat.pow_succ']
      exact hzero x
    rw [← htwice] at hbij
    exact ⟨hbij.1.of_comp, hbij.2.of_comp⟩

theorem toNat_iterate_shiftLeft (k : UInt64) (n : Nat) (x : UInt64) :
    ((· <<< k)^[n] x).toNat = x.toNat * 2 ^ (k.toNat % 64 * n) % 2 ^ 64 := by
  induction n with
  | zero => simp [Nat.mod_eq_of_lt x.toNat_lt]
  | succ n ih =>
    rw [Function.iterate_succ_apply', UInt64.toNat_shiftLeft, ih, Nat.shiftLeft_eq, Nat.mod_mul_mod,
      Nat.mul_assoc, ← Nat.pow_add, Nat.mul_succ]

theorem toNat_iterate_shiftRight (k : UInt64) (n : Nat) (x : UInt64) :
    ((· >>> k)^[n] x).toNat = x.toNat / 2 ^ (k.toNat % 64 * n) := by
  induction n with
  | zero => simp
  | succ n ih =>
    rw [Function.iterate_succ_apply', UInt64.toNat_shiftRight, ih, Nat.shiftRight_eq_div_pow,
      Nat.div_div_eq_div_mul, ← Nat.pow_add, Nat.mul_succ]

theorem bijective_shiftLeft (hk : 0 < k.toNat % 64) : Function.Bijective (shiftLeft k) := by
  refine bijective_xor_self (f := (· <<< k)) (n := 6) (fun _ _ => UInt64.shiftLeft_xor) fun x => ?_
  apply UInt64.toNat_inj.1
  have hfar : 2 ^ 64 ∣ x.toNat * 2 ^ (k.toNat % 64 * 2 ^ 6) :=
    Nat.dvd_mul_left_of_dvd (Nat.pow_dvd_pow 2 (Nat.le_mul_of_pos_left (2 ^ 6) hk)) _
  rw [toNat_iterate_shiftLeft, Nat.mod_eq_zero_of_dvd hfar, UInt64.toNat_zero]

theorem bijective_shiftRight (hk : 0 < k.toNat % 64) : Function.Bijective (shiftRight k) := by
  refine bijective_xor_self (f := (· >>> k)) (n := 6) (fun _ _ => UInt64.shiftRight_xor) fun x => ?_
  apply UInt64.toNat_inj.1
  have hfar : x.toNat < 2 ^ (k.toNat % 64 * 2 ^ 6) :=
    Nat.lt_of_lt_of_le x.toNat_lt
      (Nat.pow_le_pow_right Nat.two_pos (Nat.le_mul_of_pos_left (2 ^ 6) hk))
  rw [toNat_iterate_shiftRight, Nat.div_eq_of_lt hfar, UInt64.toNat_zero]

theorem bijective_advance : Function.Bijective advance :=
  (bijective_shiftLeft (k := 17) (by decide)).comp
    ((bijective_shiftRight (k := 7) (by decide)).comp (bijective_shiftLeft (k := 13) (by decide)))

theorem advance_eq_zero_iff {x : UInt64} : advance x = 0 ↔ x = 0 :=
  bijective_advance.1.eq_iff' rfl

theorem draw_snd_injective : Function.Injective fun g : Xorshift => g.draw.2 := by
  intro g h he
  cases g
  cases h
  exact congrArg mk (bijective_advance.1 (congrArg state he))

theorem skip_injective (n : Nat) : Function.Injective (skip n) := by
  induction n with
  | zero => exact Function.injective_id
  | succ n ih => exact ih.comp draw_snd_injective

theorem state_skip_ne_zero {g : Xorshift} (hg : g.state ≠ 0) (n : Nat) : (skip n g).state ≠ 0 := by
  induction n generalizing g with
  | zero => exact hg
  | succ n ih => exact ih fun hzero => hg (advance_eq_zero_iff.1 hzero)

theorem state_seeded_ne_zero (seed : UInt64) : (seeded seed).state ≠ 0 := by
  intro hzero
  have hone : (1 : UInt64) = 0 := (UInt64.or_eq_zero_iff.1 hzero).2
  exact absurd hone (by decide)

/-- A seeded generator never gets stuck at zero, and no two generators ever come together: each
state is reached from just one, so that different states stay different and draw different
numbers. -/
theorem draws_nondegenerate :
    (∀ seed n, (skip n (seeded seed)).state ≠ 0 ∧ (skip n (seeded seed)).draw.1 ≠ 0) ∧
    (∀ next : Xorshift, ∃! g : Xorshift, g.draw.2 = next) ∧
    ∀ n g h, (skip n g = skip n h ↔ g = h) ∧ ((skip n g).draw.1 = (skip n h).draw.1 ↔ g = h) := by
  refine ⟨fun seed n => ?_, fun next => ?_, fun n g h => ⟨(skip_injective n).eq_iff, ?_⟩⟩
  · have hstate := state_skip_ne_zero (state_seeded_ne_zero seed) n
    exact ⟨hstate, fun hzero => hstate (advance_eq_zero_iff.1 hzero)⟩
  · obtain ⟨x, hx⟩ := bijective_advance.2 next.state
    have hdraw : (draw ⟨x⟩).2 = next := congrArg mk hx
    exact ⟨⟨x⟩, hdraw, fun g hg => draw_snd_injective (hg.trans hdraw.symm)⟩
  · constructor
    · intro hdraw
      have hstate : (skip n g).state = (skip n h).state := bijective_advance.1 hdraw
      apply skip_injective n
      calc skip n g = ⟨(skip n g).state⟩ := rfl
        _ = skip n h := congrArg mk hstate
    · rintro rfl
      rfl

end SnapshotStore.Xorshift
