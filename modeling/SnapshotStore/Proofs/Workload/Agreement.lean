import Mathlib.Algebra.BigOperators.Group.Finset.Basic
import Mathlib.Data.Finset.Union
import SnapshotStore.Proofs.Workload.Foreseen

namespace SnapshotStore

namespace Workload

variable {plan : Workload}

section OneWriter

/-- The keys of a group and the removals that found something after the first operations of its only
writer. -/
def replay (plan : Workload) (n : Nat) : Nat → Finset Key × Nat
  | 0 => (∅, 0)
  | k + 1 => (plan.effect n k (replay plan n k).1,
      (replay plan n k).2 + plan.hits n k (replay plan n k).1)

theorem div_of_oneWriter (hone : plan.writersPerGroup ≤ 1) {n : Nat}
    (hn : n < plan.groups * plan.writersPerGroup) :
    n / plan.writersPerGroup = n ∧ n < plan.groups := by
  obtain hzero | hone : plan.writersPerGroup = 0 ∨ plan.writersPerGroup = 1 := by omega
  · rw [hzero] at hn
    exact absurd hn (Nat.not_lt_zero n)
  · rw [hone, Nat.mul_one] at hn
    exact ⟨by rw [hone, Nat.div_one], hn⟩

/-- With one writer for each group a group is what its writer makes of it. -/
def Forecast.ofOneWriter (hone : plan.writersPerGroup ≤ 1) : plan.Forecast where
  keys issued g := (plan.replay g (issued g)).1
  found issued := ∑ g ∈ Finset.range plan.groups, (plan.replay g (issued g)).2
  keys_start _ := rfl
  found_start := Finset.sum_eq_zero fun _ _ => rfl
  keys_issue {n} hn issued g := by
    rw [(div_of_oneWriter hone hn).1]
    by_cases hg : n = g
    · subst hg
      rw [if_pos rfl, Function.update_self]
      rfl
    · rw [if_neg hg, Function.update_of_ne (Ne.symm hg)]
  found_issue {n} hn issued := by
    obtain ⟨hdiv, hlt⟩ := div_of_oneWriter hone hn
    -- only the group of the writer at work counts anew
    have hsplit (c : Nat → Nat) : ∑ g ∈ Finset.range plan.groups, (plan.replay g (c g)).2 =
        (plan.replay n (c n)).2 +
          ∑ g ∈ (Finset.range plan.groups).erase n, (plan.replay g (c g)).2 :=
      (Finset.add_sum_erase _ (fun g => (plan.replay g (c g)).2) (Finset.mem_range.2 hlt)).symm
    have hrest : ∑ g ∈ (Finset.range plan.groups).erase n,
          (plan.replay g (Function.update issued n (issued n + 1) g)).2 =
        ∑ g ∈ (Finset.range plan.groups).erase n, (plan.replay g (issued g)).2 :=
      Finset.sum_congr rfl fun g hg => by
        rw [Function.update_of_ne (Finset.ne_of_mem_erase hg)]
    rw [hdiv, hsplit, hsplit, hrest, Function.update_self]
    exact Nat.add_right_comm ..

end OneWriter

section Uniform

def team (plan : Workload) (g : Nat) : Finset Nat :=
  (Finset.range plan.writersPerGroup).image fun i => g * plan.writersPerGroup + i

theorem mem_team {n g : Nat} :
    n ∈ plan.team g ↔ 0 < plan.writersPerGroup ∧ n / plan.writersPerGroup = g := by
  simp only [team, Finset.mem_image, Finset.mem_range]
  constructor
  · rintro ⟨i, hi, rfl⟩
    have hpos : 0 < plan.writersPerGroup := Nat.zero_lt_of_lt hi
    rw [Nat.add_comm, Nat.add_mul_div_right _ _ hpos, Nat.div_eq_of_lt hi, Nat.zero_add]
    exact ⟨hpos, rfl⟩
  · rintro ⟨hpos, rfl⟩
    exact ⟨n % plan.writersPerGroup, Nat.mod_lt n hpos, Nat.div_add_mod' ..⟩

def keysPut (plan : Workload) (n k : Nat) : Finset Key :=
  ((Finset.range k).filter fun j => plan.removesAt j = false).image (plan.drawn n)

theorem keysPut_succ_of_put {n k : Nat} (h : plan.removesAt k = false) :
    plan.keysPut n (k + 1) = insert (plan.drawn n k) (plan.keysPut n k) := by
  rw [keysPut, Finset.range_add_one, Finset.filter_insert, if_pos h, Finset.image_insert]
  rfl

theorem removeEvery_cases (h : plan.removeEvery ≤ 1) :
    plan.removeEvery = 0 ∨ plan.removeEvery = 1 := by
  have hle : plan.removeEvery.toNat ≤ 1 := UInt64.le_iff_toNat_le.1 h
  simp only [← UInt64.toNat_inj]
  change plan.removeEvery.toNat = 0 ∨ plan.removeEvery.toNat = 1
  omega

theorem removesAt_of_eq_zero (h : plan.removeEvery = 0) (k : Nat) : plan.removesAt k = false := by
  simp [removesAt, h]

theorem removesAt_of_eq_one (h : plan.removeEvery = 1) (k : Nat) : plan.removesAt k = true := by
  simp [removesAt, h, Nat.mod_one]

theorem keysPut_of_eq_one (h : plan.removeEvery = 1) (n k : Nat) : plan.keysPut n k = ∅ := by
  simp [keysPut, removesAt_of_eq_one h]

def teamKeys (plan : Workload) (issued : Nat → Nat) (g : Nat) : Finset Key :=
  (plan.team g).biUnion fun n => plan.keysPut n (issued n)

theorem teamKeys_eq_empty {issued : Nat → Nat} {g : Nat}
    (h : ∀ n, plan.keysPut n (issued n) = ∅) : plan.teamKeys issued g = ∅ := by
  refine Finset.eq_empty_of_forall_notMem fun key hkey => ?_
  obtain ⟨n, -, hmem⟩ := Finset.mem_biUnion.1 hkey
  rw [h n] at hmem
  exact Finset.notMem_empty key hmem

theorem teamKeys_of_eq_one (h : plan.removeEvery = 1) (issued : Nat → Nat) (g : Nat) :
    plan.teamKeys issued g = ∅ :=
  teamKeys_eq_empty fun n => keysPut_of_eq_one h n (issued n)

theorem teamKeys_issue_of_ne {n g : Nat} (h : n / plan.writersPerGroup ≠ g) (issued : Nat → Nat)
    (k : Nat) : plan.teamKeys (Function.update issued n k) g = plan.teamKeys issued g := by
  refine Finset.biUnion_congr rfl fun m hm => ?_
  have hne : m ≠ n := by
    rintro rfl
    exact h (mem_team.1 hm).2
  rw [Function.update_of_ne hne]

theorem teamKeys_issue_of_put {n : Nat} (hpos : 0 < plan.writersPerGroup) {issued : Nat → Nat}
    (hput : plan.removesAt (issued n) = false) :
    plan.teamKeys (Function.update issued n (issued n + 1)) (n / plan.writersPerGroup) =
      insert (plan.drawn n (issued n)) (plan.teamKeys issued (n / plan.writersPerGroup)) := by
  have hmem : n ∈ plan.team (n / plan.writersPerGroup) := mem_team.2 ⟨hpos, rfl⟩
  have hsplit (c : Nat → Nat) : plan.teamKeys c (n / plan.writersPerGroup) =
      plan.keysPut n (c n) ∪ ((plan.team (n / plan.writersPerGroup)).erase n).biUnion
        fun m => plan.keysPut m (c m) := by
    have hinsert := Finset.biUnion_insert (a := n)
      (s := (plan.team (n / plan.writersPerGroup)).erase n) (t := fun m => plan.keysPut m (c m))
    rwa [Finset.insert_erase hmem] at hinsert
  have hrest : ((plan.team (n / plan.writersPerGroup)).erase n).biUnion
        (fun m => plan.keysPut m (Function.update issued n (issued n + 1) m)) =
      ((plan.team (n / plan.writersPerGroup)).erase n).biUnion fun m => plan.keysPut m (issued m) :=
    Finset.biUnion_congr rfl fun m hm => by
      rw [Function.update_of_ne (Finset.ne_of_mem_erase hm)]
  rw [hsplit, hrest, Function.update_self, keysPut_succ_of_put hput, Finset.insert_union, ← hsplit]

/-- When all operations are puts, or none is, the order of the writers does not matter. -/
def Forecast.ofUniform (h : plan.removeEvery ≤ 1) : plan.Forecast where
  keys := plan.teamKeys
  found _ := 0
  keys_start _ := teamKeys_eq_empty fun _ => rfl
  found_start := rfl
  keys_issue {n} hn issued g := by
    obtain hzero | hone := removeEvery_cases h
    · have hput := removesAt_of_eq_zero hzero (issued n)
      by_cases hg : n / plan.writersPerGroup = g
      · subst hg
        have hpos : 0 < plan.writersPerGroup := Nat.pos_of_mul_pos_left (Nat.zero_lt_of_lt hn)
        rw [if_pos rfl, effect, hput, if_neg Bool.false_ne_true, teamKeys_issue_of_put hpos hput]
      · rw [if_neg hg, teamKeys_issue_of_ne hg]
    · simp [teamKeys_of_eq_one hone, effect, removesAt_of_eq_one hone]
  found_issue {n} hn issued := by
    obtain hzero | hone := removeEvery_cases h
    · simp [hits, removesAt_of_eq_zero hzero]
    · simp [hits, teamKeys_of_eq_one hone]

def keysDrawn (plan : Workload) (g : Nat) : Finset Key :=
  (plan.team g).biUnion fun n => (Finset.range plan.opsPerWriter.toNat).image (plan.drawn n)

theorem teamKeys_quota (h : plan.removeEvery = 0) {g : Nat} (hg : g < plan.groups) :
    plan.teamKeys plan.quota g = plan.keysDrawn g := by
  refine Finset.biUnion_congr rfl fun n hn => ?_
  obtain ⟨hpos, rfl⟩ := mem_team.1 hn
  have hlt : n < plan.groups * plan.writersPerGroup := (Nat.div_lt_iff_lt_mul hpos).1 hg
  rw [quota, if_pos hlt, keysPut, Finset.filter_true_of_mem fun k _ => removesAt_of_eq_zero h k]

end Uniform

end Workload

/-- Two reports that differ at most in what the readers have counted. -/
structure Report.Agrees (report other : Report) : Prop where
  puts : report.tally.puts = other.tally.puts
  removes : report.tally.removes = other.tally.removes
  violations : report.tally.violations = other.tally.violations
  finalSizes : report.finalSizes = other.finalSizes
  retiredIndexes : report.reclamation.retiredIndexes = other.reclamation.retiredIndexes
  retiredEntries : report.reclamation.retiredEntries = other.reclamation.retiredEntries

/-- The report of a run that has written nothing. -/
structure Report.Idle (plan : Workload) (report : Report) : Prop where
  puts : report.tally.puts = 0
  removes : report.tally.removes = 0
  finalSizes : report.finalSizes = List.replicate plan.groups 0
  retiredIndexes : report.reclamation.retiredIndexes = 0
  retiredEntries : report.reclamation.retiredEntries = 0

namespace Report.Foretold

variable {plan : Workload} {report other : Report}

theorem agrees {F : plan.Forecast} (h : report.Foretold F) (h' : other.Foretold F) :
    report.Agrees other := by
  have hputs := h.puts.trans h'.puts.symm
  have hremoves := h.removes.trans h'.removes.symm
  have hsizes := h.finalSizes.trans h'.finalSizes.symm
  refine ⟨hputs, hremoves, h.violations.trans h'.violations.symm, hsizes, ?_, ?_⟩
  · rw [h.retiredIndexes, h'.retiredIndexes, hputs, hremoves]
  · rw [h.retiredEntries, h'.retiredEntries, hsizes]

theorem finalSizes_of_eq_zero {h : plan.removeEvery ≤ 1}
    (hf : report.Foretold (.ofUniform h)) (hzero : plan.removeEvery = 0) :
    report.finalSizes = (List.range plan.groups).map fun g => (plan.keysDrawn g).card := by
  rw [hf.finalSizes]
  exact List.map_congr_left fun g hg =>
    congrArg _ (Workload.teamKeys_quota hzero (List.mem_range.1 hg))

theorem idle_of_eq_one {h : plan.removeEvery ≤ 1} (hf : report.Foretold (.ofUniform h))
    (hone : plan.removeEvery = 1) : report.Idle plan := by
  have hnone : plan.groups * plan.writersPerGroup * plan.puts plan.opsPerWriter.toNat = 0 := by
    simp [Workload.puts, Workload.removals, hone]
  have hputs : report.tally.puts = 0 := by rw [hf.puts, hnone]; rfl
  have hremoves : report.tally.removes = 0 := hf.removes
  have hsizes : report.finalSizes = List.replicate plan.groups 0 := by
    have hcard : ∀ g, ((Workload.Forecast.ofUniform h).keys plan.quota g).card = 0 := fun g =>
      Finset.card_eq_zero.2 (Workload.teamKeys_of_eq_one hone plan.quota g)
    rw [hf.finalSizes]
    simp [hcard]
  refine ⟨hputs, hremoves, hsizes, ?_, ?_⟩
  · rw [hf.retiredIndexes, hputs, hremoves]
    rfl
  · rw [hf.retiredEntries, hnone, Nat.zero_sub]
    rfl

end Report.Foretold

/-- Where each group has one writer, and where no writer mixes puts and removals, every run can be
brought to an end, and the order in which its threads take their steps does not show in what the
writers are reported to have done. Without removals a group ends up with the keys that its writers
have drawn; with nothing else the groups stay empty. -/
theorem Workload.run_agrees {plan : Workload} (hp : plan.Feasible)
    (hplan : plan.writersPerGroup ≤ 1 ∨ plan.removeEvery ≤ 1) :
    ∃ w, plan.world = .ok w ∧
      (∀ schedule, ∃ rest, (w.run (schedule ++ rest)).isOver) ∧
      (∀ schedule other, (w.run schedule).isOver → (w.run other).isOver →
        ∀ collector collector',
          ((w.run schedule).report collector).Agrees ((w.run other).report collector')) ∧
      ∀ schedule, (w.run schedule).isOver → ∀ collector,
        (plan.removeEvery = 0 → ((w.run schedule).report collector).finalSizes =
          (List.range plan.groups).map fun g => (plan.keysDrawn g).card) ∧
        (plan.removeEvery = 1 → ((w.run schedule).report collector).Idle plan) := by
  refine ⟨plan.setup, world_eq_ok.2 ⟨hp.toAccepted, rfl⟩, hp.exists_isOver,
    fun schedule other hover hover' collector collector' => ?_,
    fun schedule hover collector => ⟨fun hzero => ?_, fun hone => ?_⟩⟩
  · obtain hone | huniform := hplan
    · exact (hp.foretold (.ofOneWriter hone) hover collector).agrees
        (hp.foretold _ hover' collector')
    · exact (hp.foretold (.ofUniform huniform) hover collector).agrees
        (hp.foretold _ hover' collector')
  · have huniform : plan.removeEvery ≤ 1 := by
      rw [hzero]
      decide
    exact (hp.foretold (.ofUniform huniform) hover collector).finalSizes_of_eq_zero hzero
  · have huniform : plan.removeEvery ≤ 1 := by
      rw [hone]
      decide
    exact (hp.foretold (.ofUniform huniform) hover collector).idle_of_eq_one hone

def Workload.shared : Workload :=
  { groups := 1, writersPerGroup := 2, readers := 1, keys := 4, opsPerWriter := 2, removeEvery := 0,
    payloadLen := 20 }

/-- The second writer goes first, after the reader has begun. -/
def Workload.secondFirst : List Actor :=
  List.replicate 2 (.reader 0) ++ List.replicate 4 (.writer 1) ++ List.replicate 4 (.writer 0) ++
    List.replicate 12 (.reader 0)

theorem Workload.shared_agrees :
    shared.Feasible ∧ shared.removeEvery ≤ 1 ∧
      (shared.setup.run shared.inTurn).isOver ∧ (shared.setup.run secondFirst).isOver ∧
      (shared.setup.run shared.inTurn).store ≠ (shared.setup.run secondFirst).store ∧
      ((shared.setup.run shared.inTurn).report .usual).Agrees
        ((shared.setup.run secondFirst).report .usual) ∧
      ((shared.setup.run secondFirst).report .usual).finalSizes =
        [(shared.keysDrawn 0).card] := by
  have hfeasible : shared.Feasible :=
    ⟨⟨by decide, by decide, by decide, by decide, by decide, by decide, by decide⟩, rfl⟩
  have hover : (shared.setup.run shared.inTurn).isOver := by decide +kernel
  have hover' : (shared.setup.run secondFirst).isOver := by decide +kernel
  obtain ⟨w, hw, -, hagrees, hsizes⟩ := run_agrees hfeasible (.inr (by decide))
  obtain rfl : w = shared.setup := (world_eq_ok.1 hw).2
  exact ⟨hfeasible, by decide, hover, hover', by decide +kernel, hagrees _ _ hover hover' _ _,
    (hsizes _ hover' _).1 rfl⟩

end SnapshotStore
