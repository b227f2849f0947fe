import SnapshotStore.Proofs.Workload.Forecast

namespace SnapshotStore

variable {plan : Workload} {F : plan.Forecast}

def Workload.quota (plan : Workload) (n : Nat) : Nat :=
  if n < plan.groups * plan.writersPerGroup then plan.opsPerWriter.toNat else 0

namespace World

variable {w : World} {n : Nat} {wr wr' : Writer}

def issued (w : World) (n : Nat) : Nat := w.writers[n]?.elim 0 fun wr => wr.issued.toNat

theorem issued_of_getElem? (hwr : w.writers[n]? = some wr) : w.issued n = wr.issued.toNat := by
  rw [issued, hwr]
  rfl

theorem issued_set (hwr : w.writers[n]? = some wr) {w' : World}
    (hw' : w'.writers = w.writers.set n wr') :
    w'.issued = Function.update w.issued n wr'.issued.toNat := by
  funext m
  obtain ⟨hn, -⟩ := List.getElem?_eq_some_iff.1 hwr
  by_cases hm : n = m
  · subst hm
    rw [Function.update_self, issued, hw', List.getElem?_set_self hn]
    rfl
  · rw [Function.update_of_ne (Ne.symm hm), issued, hw', List.getElem?_set_ne hm]
    rfl

/-- The writers stand where their counts say, and groups and removals are as forecast. -/
structure Foreseen (F : plan.Forecast) (w : World) : Prop where
  writers : ∀ (n : Nat) (wr : Writer), w.writers[n]? = some wr → wr.At plan n
  keys : ∀ (n : Nat) (g : Group), w.store.groups[n]? = some g →
    g.index.keySet = F.keys w.issued n
  removes : w.tally.removes = .ofNat (F.found w.issued)

namespace Foreseen

theorem step_reader (h : w.Foreseen F) (hs : w.Sound plan) (hp : plan.Feasible) (n : Nat) :
    (w.step (.reader n)).Foreseen F := by
  simp only [World.step]
  cases hr : w.readers[n]? with
  | none => exact h
  | some r =>
    obtain ⟨hn, hready⟩ := hs.readers n r hr
    obtain ⟨tally, bs, hworld, -, -, -, hremoves, -⟩ := hs.stepReader hp hready (hs.window_le hn)
    simp only [hworld]
    exact ⟨h.writers, h.keys, hremoves.trans h.removes⟩

theorem set_writer (h : w.Foreseen F) (hwr' : wr'.At plan n) {m : Nat} {other : Writer}
    (hm : (w.writers.set n wr')[m]? = some other) : other.At plan m := by
  rw [List.getElem?_set] at hm
  by_cases hn : n = m
  · subst hn
    rw [if_pos rfl] at hm
    obtain ⟨-, heq⟩ := Option.ite_none_right_eq_some.1 hm
    cases heq
    exact hwr'
  · rw [if_neg hn] at hm
    exact h.writers m other hm

theorem retire_writer (h : w.Foreseen F) (hwr : w.writers[n]? = some wr) (phase : WriterPhase)
    (writersLeft : Nat) (done : Bool) :
    Foreseen F { w with writersLeft, done, writers := w.writers.set n { wr with phase } } := by
  obtain ⟨hgroup, hrng⟩ := h.writers n wr hwr
  have hat : Writer.At plan n { wr with phase } := ⟨hgroup, hrng⟩
  have hissued : World.issued
      { w with writersLeft, done, writers := w.writers.set n { wr with phase } } = w.issued := by
    rw [issued_set hwr rfl]
    exact Function.update_eq_self_iff.2 (issued_of_getElem? hwr).symm
  refine ⟨fun m other hm => h.set_writer hat hm, ?_, ?_⟩
  · rw [hissued]
    exact h.keys
  · rw [hissued]
    exact h.removes

theorem operate (h : w.Foreseen F) (hs : w.Sound plan) (hc : w.Counted plan) (hp : plan.Feasible)
    (hwr : w.writers[n]? = some wr) (hlt : wr.issued < plan.opsPerWriter)
    {next : Writer × Store × Tally} (hop : Writer.Operated plan wr w.store w.tally next) :
    Foreseen F
      { w with store := next.2.1, tally := next.2.2, writers := w.writers.set n next.1 } := by
  have hat := h.writers n wr hwr
  have hnext : next.1 = (wr.draw plan).2 := by cases hop <;> rfl
  have hlength := hc.length
  have hn : n < plan.groups * plan.writersPerGroup := hlength ▸ (List.getElem?_eq_some_iff.1 hwr).1
  have hnow := issued_of_getElem? hwr
  have hissued : World.issued
      { w with store := next.2.1, tally := next.2.2, writers := w.writers.set n next.1 } =
        Function.update w.issued n (w.issued n + 1) := by
    rw [issued_set hwr rfl, hnext, hnow, ← Workload.toNat_succ hlt]
    rfl
  have hslot := hat.slot hp hn
  -- the store's groups and the forecast's change alike, each by what the operation does to keys
  refine ⟨fun m other hm => h.set_writer (hnext ▸ hat.draw_snd hlt) hm, fun m g' hg' => ?_, ?_⟩
  · obtain ⟨g, hg, hkeys⟩ := hop.keySet hs.holds hat hlt hg'
    rw [hissued, F.keys_issue hn, hkeys, h.keys m g hg, hslot, hnow]
  · obtain ⟨g, hg, hremoves⟩ := hop.removes hs.holds hat hlt
    rw [hissued, F.found_issue hn, UInt64.ofNat_add, ← h.removes, hnow, ← hslot, ← h.keys _ g hg]
    exact hremoves

theorem step_writer (h : w.Foreseen F) (hs : w.Sound plan) (hc : w.Counted plan)
    (hp : plan.Feasible) (n : Nat) : (w.step (.writer n)).Foreseen F := by
  obtain rfl := hs.plan_eq
  simp only [World.step]
  cases hwr : w.writers[n]? with
  | none => exact h
  | some wr =>
    dsimp only [World.stepWriter]
    cases hphase : wr.phase with
    | working =>
      dsimp only
      split
      · next hlt =>
        have hop := Writer.operate_spec w.tally hp hs.holds hs.maxEntryLen
          (hs.writers wr (List.mem_of_getElem? hwr))
        exact h.operate hs hc hp hwr hlt hop
      · exact h.retire_writer hwr _ _ _
    | announcing => exact h.retire_writer hwr _ _ _
    | gone =>
      obtain ⟨hn, rfl⟩ := List.getElem?_eq_some_iff.1 hwr
      rw [List.set_getElem_self hn]
      exact h

theorem run (h : w.Foreseen F) (hs : w.Sound plan) (hc : w.Counted plan) (hp : plan.Feasible)
    (schedule : List Actor) : (w.run schedule).Foreseen F := by
  induction schedule generalizing w with
  | nil => exact h
  | cons actor schedule ih =>
    have hnext : (w.step actor).Foreseen F := by
      cases actor with
      | writer n => exact h.step_writer hs hc hp n
      | reader n => exact h.step_reader hs hp n
    exact ih hnext (hs.step hp actor) (hc.step hs hp actor)

end Foreseen

theorem issued_of_isOver (hc : w.Counted plan) (hover : w.isOver) : w.issued = plan.quota := by
  funext n
  unfold Workload.quota
  split
  · next hn =>
    have hget := List.getElem?_eq_getElem (hc.length.symm ▸ hn : n < w.writers.length)
    rw [issued_of_getElem? hget, hc.issued_of_isOver hover _ (List.mem_of_getElem? hget)]
  · next hn =>
    rw [issued, List.getElem?_eq_none (by rw [hc.length]; omega)]
    rfl

end World

/-- What a forecast says about the report of a run. -/
structure Report.Foretold (F : plan.Forecast) (report : Report) : Prop where
  violations : report.tally.violations = 0
  puts : report.tally.puts =
    .ofNat (plan.groups * plan.writersPerGroup * plan.puts plan.opsPerWriter.toNat)
  removes : report.tally.removes = .ofNat (F.found plan.quota)
  finalSizes : report.finalSizes =
    (List.range plan.groups).map fun g => (F.keys plan.quota g).card
  retiredIndexes : report.reclamation.retiredIndexes = report.tally.puts + report.tally.removes
  retiredEntries : report.reclamation.retiredEntries =
    .ofNat (plan.groups * plan.writersPerGroup * plan.puts plan.opsPerWriter.toNat -
      report.finalSizes.sum)

theorem World.Foreseen.report {w : World} (h : w.Foreseen F) (hs : w.Sound plan)
    (hc : w.Counted plan) (hp : plan.Feasible) (hover : w.isOver) (collector : Collector) :
    (w.report collector).Foretold F := by
  have hissued := issued_of_isOver hc hover
  have hputs := Writer.total_of_issued (f := plan.puts) (hc.issued_of_isOver hover)
  rw [hc.length] at hputs
  obtain ⟨removed, gaveWay, -, htotal, hremoved, hindexes, hentries⟩ := hc.retired
  have htally := hs.tally_report hp collector
  have hsizes : (w.report collector).finalSizes = w.store.groups.map Group.size := hs.sizes_eq
  refine ⟨?_, ?_, ?_, ?_, ?_, ?_⟩
  · rw [htally]
    exact hs.clean
  · rw [htally, hc.puts, hputs]
  · rw [htally, h.removes, hissued]
  · rw [hsizes]
    have hlength := hs.holds.length
    apply List.ext_getElem
    · simp [hlength]
    · intro n hn _
      rw [List.length_map] at hn
      have hget := List.getElem?_eq_getElem hn
      rw [List.getElem_map, List.getElem_map, List.getElem_range, ← hissued, ← h.keys n _ hget,
        Index.card_keySet (hs.holds.ascending n _ hget)]
      rfl
  · rw [htally, hc.puts, hremoved, ← UInt64.ofNat_add]
    exact hindexes
  · have hgaveWay : plan.groups * plan.writersPerGroup * plan.puts plan.opsPerWriter.toNat -
        (w.report collector).finalSizes.sum = gaveWay := by
      rw [← hputs, ← htotal, hsizes]
      exact Nat.add_sub_cancel ..
    rw [hgaveWay]
    exact hentries

theorem Workload.setup_foreseen (F : plan.Forecast) : plan.setup.Foreseen F := by
  have hwriter : ∀ (n : Nat) (wr : Writer), plan.setup.writers[n]? = some wr →
      wr = .start (.ofSlot (n / plan.writersPerGroup)) (UInt64.ofNat n + 1) := by
    intro n wr hwr
    obtain ⟨hn, rfl⟩ := List.getElem?_eq_some_iff.1 hwr
    simp [setup, World.initial]
  have hissued : plan.setup.issued = fun _ => 0 := by
    funext n
    cases hwr : plan.setup.writers[n]? with
    | none => rw [World.issued, hwr, Option.elim_none]
    | some wr =>
      rw [World.issued_of_getElem? hwr, hwriter n wr hwr]
      rfl
  refine ⟨fun n wr hwr => ?_, fun n g hg => ?_, ?_⟩
  · rw [hwriter n wr hwr]
    exact ⟨rfl, rfl⟩
  · rw [store_setup] at hg
    obtain ⟨hn, rfl⟩ := List.getElem?_eq_some_iff.1 hg
    rw [hissued, F.keys_start]
    simp [Index.keySet_empty]
  · rw [hissued, F.found_start]
    rfl

/-- The report of a run, in whatever order its threads took their steps, is as forecast. -/
theorem Workload.Feasible.foretold (hp : plan.Feasible) (F : plan.Forecast) {schedule : List Actor}
    (hover : (plan.setup.run schedule).isOver) (collector : Collector) :
    ((plan.setup.run schedule).report collector).Foretold F :=
  ((setup_foreseen F).run hp.setup_sound plan.setup_counted hp schedule).report
    (hp.setup_sound.run hp schedule) (plan.setup_counted.run hp.setup_sound hp schedule) hp hover
    collector

end SnapshotStore
