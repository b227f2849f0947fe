import SnapshotStore.Proofs.Workload.Progress

namespace SnapshotStore

/-- What the report of a run without violations says. -/
structure Report.Expected (plan : Workload) (report : Report) : Prop where
  clean : report.tally.violations = 0
  puts : report.tally.puts.toNat = plan.groups * plan.writersPerGroup *
    (plan.opsPerWriter.toNat - plan.removals plan.opsPerWriter.toNat)
  groups : report.finalSizes.length = plan.groups
  sizes_le : ∀ size ∈ report.finalSizes, size ≤ plan.keys.toNat
  retiredIndexes : report.reclamation.retiredIndexes.toNat =
    report.tally.puts.toNat + report.tally.removes.toNat
  retiredEntries : report.reclamation.retiredEntries.toNat + report.finalSizes.sum =
    report.tally.puts.toNat

namespace World

variable {plan : Workload} {w : World}

theorem Sound.slot_lt (h : w.Sound plan) (hp : plan.Feasible) :
    ∀ id ∈ w.groups, id.slot < plan.groups := by
  intro id hid
  obtain ⟨n, hn, rfl⟩ := List.mem_map.1 hid
  have hgroups : plan.groups ≤ 4 := hp.groups_le
  rw [h.plan_eq, List.mem_range] at hn
  rwa [GroupId.slot_ofSlot (by omega)]

theorem Sound.inspectOrder_eq (h : w.Sound plan) {id : GroupId} (hid : id.slot < plan.groups)
    (tally : Tally) : w.inspectOrder tally id = tally := by
  obtain ⟨g, hg, hascending, -⟩ := h.holds.group hid
  rw [inspectOrder, Store.snapshot_of_group hg]
  simp only [(Index.isAscending_iff _).2 hascending, Tally.expect_true]

theorem Sound.foldl_inspectOrder (h : w.Sound plan) (ids : List GroupId) (tally : Tally)
    (hids : ∀ id ∈ ids, id.slot < plan.groups) : ids.foldl w.inspectOrder tally = tally := by
  induction ids with
  | nil => rfl
  | cons id ids ih =>
    rw [List.foldl_cons, h.inspectOrder_eq (hids id List.mem_cons_self)]
    exact ih fun id' hid' => hids id' (List.mem_cons_of_mem _ hid')

theorem Sound.tally_report (h : w.Sound plan) (hp : plan.Feasible) (collector : Collector) :
    (w.report collector).tally = w.tally :=
  h.foldl_inspectOrder _ _ (h.slot_lt hp)

theorem Sound.sizes_eq (h : w.Sound plan) : w.store.sizes = w.store.groups.map Group.size := by
  rw [Store.sizes, h.holds.allocated, ← h.holds.length, List.take_length]

theorem Counted.issued_of_isOver (hc : w.Counted plan) (hover : w.isOver) :
    ∀ wr ∈ w.writers, wr.issued = plan.opsPerWriter := by
  simp only [isOver, Bool.and_eq_true, List.all_eq_true, decide_eq_true_eq] at hover
  intro wr hwr
  exact hc.finished wr hwr (by simp [hover.1 wr hwr])

theorem Sound.report_expected (h : w.Sound plan) (hc : w.Counted plan) (hp : plan.Feasible)
    (hops : plan.groups * plan.writersPerGroup * plan.opsPerWriter.toNat < 2 ^ 64)
    (hover : w.isOver) (collector : Collector) : (w.report collector).Expected plan := by
  have hissued := hc.issued_of_isOver hover
  have hputs := Writer.total_of_issued (f := plan.puts) hissued
  have hremovals := Writer.total_of_issued (f := plan.removals) hissued
  rw [hc.length] at hputs hremovals
  have hsum : plan.puts plan.opsPerWriter.toNat + plan.removals plan.opsPerWriter.toNat =
      plan.opsPerWriter.toNat := Nat.sub_add_cancel (Workload.removals_le _ _)
  have hall : Writer.total plan.puts w.writers + Writer.total plan.removals w.writers <
      UInt64.size := by
    rw [hputs, hremovals, ← Nat.mul_add, hsum]
    exact hops
  obtain ⟨removed, gaveWay, hle, htotal, hremoved, hindexes, hentries⟩ := hc.retired
  have htally : w.tally.puts.toNat = Writer.total plan.puts w.writers := by
    rw [hc.puts, UInt64.toNat_ofNat_of_lt' (by omega)]
  refine ⟨?_, ?_, ?_, ?_, ?_, ?_⟩
  · rw [h.tally_report hp]
    exact h.clean
  · rw [h.tally_report hp, htally, hputs]
    rfl
  · change w.store.sizes.length = _
    rw [h.sizes_eq, List.length_map, h.holds.length]
  · change ∀ size ∈ w.store.sizes, _
    rw [h.sizes_eq]
    intro size hsize
    obtain ⟨g, hg, rfl⟩ := List.mem_map.1 hsize
    obtain ⟨n, hn⟩ := List.getElem?_of_mem hg
    exact Index.size_le (h.holds.ascending n g hn) fun e he => (h.holds.allowed n g hn e he).key_lt
  · rw [h.tally_report hp, htally]
    change w.store.reclaimer.counts.retiredIndexes.toNat = _
    rw [hindexes, hremoved, UInt64.toNat_ofNat_of_lt' (by omega),
      UInt64.toNat_ofNat_of_lt' (by omega)]
  · rw [h.tally_report hp, htally]
    change w.store.reclaimer.counts.retiredEntries.toNat + w.store.sizes.sum = _
    rw [hentries, h.sizes_eq, UInt64.toNat_ofNat_of_lt' (by omega)]
    exact htotal

end World

/-- Every order of the steps of all threads can be brought to an end, and every run that is over
has found nothing wrong and has the counts that its plan demands. -/
theorem Workload.run_expected {plan : Workload} (hp : plan.Feasible)
    (hops : plan.groups * plan.writersPerGroup * plan.opsPerWriter.toNat < 2 ^ 64) :
    ∃ w, plan.world = .ok w ∧ ∀ schedule : List Actor,
      (∃ rest, (w.run (schedule ++ rest)).isOver) ∧
      ((w.run schedule).isOver →
        ∀ collector, ((w.run schedule).report collector).Expected plan) := by
  refine ⟨plan.setup, world_eq_ok.2 ⟨hp.toAccepted, rfl⟩, fun schedule => ?_⟩
  have hs := hp.setup_sound.run hp schedule
  have hc := plan.setup_counted.run hp.setup_sound hp schedule
  have ha := plan.setup_attended.run hp.setup_sound hp schedule
  refine ⟨?_, hs.report_expected hc hp hops⟩
  obtain ⟨rest, hrest⟩ := ha.exists_isOver hs hp
  refine ⟨rest, ?_⟩
  rwa [World.run, List.foldl_append]

/-- Two writers of one group, one of whose two operations is a removal, and one reader. -/
def Workload.small : Workload :=
  { groups := 1, writersPerGroup := 2, readers := 1, keys := 2, opsPerWriter := 2, removeEvery := 2,
    payloadLen := 20 }

theorem Workload.small_expected :
    small.Feasible ∧ small.groups * small.writersPerGroup * small.opsPerWriter.toNat < 2 ^ 64 ∧
      (∃ w, small.world = .ok w ∧ ∀ schedule : List Actor,
        (∃ rest, (w.run (schedule ++ rest)).isOver) ∧
        ((w.run schedule).isOver →
          ∀ collector, ((w.run schedule).report collector).Expected small)) ∧
      (small.setup.run small.inTurn).isOver := by
  have hfeasible : small.Feasible :=
    ⟨⟨by decide, by decide, by decide, by decide, by decide, by decide, by decide⟩, rfl⟩
  have hops : small.groups * small.writersPerGroup * small.opsPerWriter.toNat < 2 ^ 64 := by decide
  exact ⟨hfeasible, hops, run_expected hfeasible hops, by decide +kernel⟩

end SnapshotStore
