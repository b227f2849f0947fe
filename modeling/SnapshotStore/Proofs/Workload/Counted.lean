import SnapshotStore.Proofs.Store.Total
import SnapshotStore.Proofs.Workload.Sound

namespace SnapshotStore

namespace Workload

variable {plan : Workload}

def removals (plan : Workload) (n : Nat) : Nat :=
  if plan.removeEvery = 0 then 0 else n / plan.removeEvery.toNat

def puts (plan : Workload) (n : Nat) : Nat := n - plan.removals n

theorem removals_le (plan : Workload) (n : Nat) : plan.removals n ≤ n := by
  unfold removals
  split
  · exact Nat.zero_le n
  · exact Nat.div_le_self ..

theorem toNat_succ {x y : UInt64} (h : x < y) : (x + 1).toNat = x.toNat + 1 := by
  have hx := UInt64.lt_iff_toNat_lt.1 h
  have hy := y.toNat_lt
  rw [UInt64.toNat_add]
  exact Nat.mod_eq_of_lt (Nat.lt_of_le_of_lt hx hy)

/-- Whether a writer that has issued `n` operations removes next. -/
def removesAt (plan : Workload) (n : Nat) : Bool :=
  plan.removeEvery ≠ 0 && (n + 1) % plan.removeEvery.toNat = 0

theorem removesNext_eq {wr : Writer} (h : wr.issued < plan.opsPerWriter) :
    wr.removesNext plan = plan.removesAt wr.issued.toNat := by
  have hmod : (wr.issued + 1) % plan.removeEvery = 0 ↔
      (wr.issued.toNat + 1) % plan.removeEvery.toNat = 0 := by
    rw [← UInt64.toNat_inj, UInt64.toNat_mod, toNat_succ h]
    rfl
  simp only [Writer.removesNext, removesAt, hmod]

theorem removals_succ {wr : Writer} (h : wr.issued < plan.opsPerWriter) :
    plan.removals (wr.issued.toNat + 1) =
      plan.removals wr.issued.toNat + if wr.removesNext plan then 1 else 0 := by
  rw [removesNext_eq h]
  by_cases hzero : plan.removeEvery = 0
  · simp [removals, removesAt, hzero]
  · by_cases hr : (wr.issued.toNat + 1) % plan.removeEvery.toNat = 0
    · simp [removals, removesAt, hzero, hr, Nat.succ_div_of_mod_eq_zero]
    · simp [removals, removesAt, hzero, hr, Nat.succ_div_of_mod_ne_zero]

theorem puts_succ {wr : Writer} (h : wr.issued < plan.opsPerWriter) :
    plan.puts (wr.issued.toNat + 1) =
      plan.puts wr.issued.toNat + if wr.removesNext plan then 0 else 1 := by
  have hle := removals_le plan wr.issued.toNat
  rw [puts, puts, removals_succ h]
  split <;> omega

end Workload

namespace Writer

variable {writers : List Writer} {n : Nat} {wr wr' : Writer} {f : Nat → Nat}

def total (f : Nat → Nat) (writers : List Writer) : Nat :=
  (writers.map fun wr => f wr.issued.toNat).sum

theorem total_set_same (hwr : writers[n]? = some wr) (h : wr'.issued = wr.issued) :
    total f (writers.set n wr') = total f writers := by
  have hset := sum_map_set (fun wr => f wr.issued.toNat) hwr wr'
  rw [h] at hset
  exact Nat.add_right_cancel hset

theorem total_set_succ {k : Nat} (hwr : writers[n]? = some wr)
    (h : f wr'.issued.toNat = f wr.issued.toNat + k) :
    total f (writers.set n wr') = total f writers + k := by
  have hset := sum_map_set (fun wr => f wr.issued.toNat) hwr wr'
  simp only [h] at hset
  simp only [total]
  omega

theorem total_of_issued {issued : UInt64} (h : ∀ wr ∈ writers, wr.issued = issued) :
    total f writers = writers.length * f issued.toNat := by
  have hmap : writers.map (fun wr => f wr.issued.toNat) = writers.map fun _ => f issued.toNat :=
    List.map_congr_left fun wr hwr => by rw [h wr hwr]
  rw [total, hmap, List.map_const', List.sum_replicate_nat]

/-- What one operation adds to the counters: a put publishes an index, a removal does so if it finds
something, and an entry that gives way is one that a group no longer has. -/
theorem Operated.balance {plan : Workload} {store : Store} {tally : Tally}
    {next : Writer × Store × Tally} (hop : Operated plan wr store tally next)
    (hs : store.Holds plan.groups plan.Allows) :
    ∃ found gaveWay, found ≤ (if wr.removesNext plan then 1 else 0) ∧
      gaveWay + next.2.1.total = store.total + (if wr.removesNext plan then 0 else 1) ∧
      next.2.2.puts = tally.puts + .ofNat (if wr.removesNext plan then 0 else 1) ∧
      next.2.2.removes = tally.removes + .ofNat found ∧
      next.2.1.reclaimer.counts.retiredIndexes = store.reclaimer.counts.retiredIndexes +
        .ofNat ((if wr.removesNext plan then 0 else 1) + found) ∧
      next.2.1.reclaimer.counts.retiredEntries =
        store.reclaimer.counts.retiredEntries + .ofNat gaveWay := by
  cases hop with
  | put g e hput hg he hkey =>
    have htotal := Store.total_put hg (hs.ascending _ _ (Store.group_eq_ok.1 hg).2) e
      (g.index.upsert e).2.isSome
    simp only [hput, Bool.false_eq_true, ↓reduceIte]
    refine ⟨0, (g.index.upsert e).2.elim 0 fun _ => 1, Nat.le_refl 0, by omega, rfl,
      (UInt64.add_zero _).symm, rfl, ?_⟩
    rw [Store.counts_publish]
    cases (g.index.upsert e).2 with
    | none => exact (UInt64.add_zero _).symm
    | some old => rfl
  | missed g hremove hg hr =>
    simp only [hremove, ↓reduceIte]
    exact ⟨0, 0, Nat.zero_le 1, Nat.zero_add _, (UInt64.add_zero _).symm,
      (UInt64.add_zero _).symm, (UInt64.add_zero _).symm, (UInt64.add_zero _).symm⟩
  | removed g ix e hremove hg hr =>
    have htotal := Store.total_remove hg (hs.ascending _ _ (Store.group_eq_ok.1 hg).2) hr true
    simp only [hremove, ↓reduceIte]
    exact ⟨1, 1, Nat.le_refl 1, by omega, (UInt64.add_zero _).symm, rfl, rfl, rfl⟩

end Writer

namespace World

variable {plan : Workload} {w : World}

/-- All counters follow from what the writers have issued, from how many of their removals found
something, and from how many entries there are. -/
structure Counted (plan : Workload) (w : World) : Prop where
  length : w.writers.length = plan.groups * plan.writersPerGroup
  issued : ∀ wr ∈ w.writers, wr.issued ≤ plan.opsPerWriter
  finished : ∀ wr ∈ w.writers, wr.phase ≠ .working → wr.issued = plan.opsPerWriter
  puts : w.tally.puts = .ofNat (Writer.total plan.puts w.writers)
  retired : ∃ removed gaveWay, removed ≤ Writer.total plan.removals w.writers ∧
    gaveWay + w.store.total = Writer.total plan.puts w.writers ∧
    w.tally.removes = .ofNat removed ∧
    w.store.reclaimer.counts.retiredIndexes = .ofNat (Writer.total plan.puts w.writers + removed) ∧
    w.store.reclaimer.counts.retiredEntries = .ofNat gaveWay

namespace Counted

theorem step_reader (h : w.Counted plan) (hs : w.Sound plan) (hp : plan.Feasible) (n : Nat) :
    (w.step (.reader n)).Counted plan := by
  simp only [World.step]
  cases hr : w.readers[n]? with
  | none => exact h
  | some r =>
    obtain ⟨hn, hready⟩ := hs.readers n r hr
    obtain ⟨tally, bs, hworld, -, -, hputs, hremoves, -⟩ := hs.stepReader hp hready (hs.window_le hn)
    simp only [hworld]
    refine ⟨h.length, h.issued, h.finished, hputs.trans h.puts, ?_⟩
    obtain ⟨removed, gaveWay, hle, htotal, hremoved, hretired⟩ := h.retired
    exact ⟨removed, gaveWay, hle, htotal, hremoves.trans hremoved, hretired⟩

theorem retire_writer (h : w.Counted plan) {n : Nat} {wr wr' : Writer}
    (hwr : w.writers[n]? = some wr) (hissued : wr'.issued = wr.issued)
    (hphase : wr'.phase ≠ .working → wr.issued = plan.opsPerWriter) (writersLeft : Nat)
    (done : Bool) :
    Counted plan { w with writersLeft, done, writers := w.writers.set n wr' } := by
  have hmem := List.mem_of_getElem? hwr
  refine ⟨by simpa using h.length, fun wr'' hwr'' => ?_, fun wr'' hwr'' hw => ?_, ?_, ?_⟩
  · obtain hold | rfl := List.mem_or_eq_of_mem_set hwr''
    · exact h.issued wr'' hold
    · exact hissued ▸ h.issued wr hmem
  · obtain hold | rfl := List.mem_or_eq_of_mem_set hwr''
    · exact h.finished wr'' hold hw
    · exact hissued.trans (hphase hw)
  · rw [Writer.total_set_same hwr hissued]
    exact h.puts
  · rw [Writer.total_set_same hwr hissued, Writer.total_set_same hwr hissued]
    exact h.retired

theorem operate (h : w.Counted plan) (hs : w.Sound plan) {n : Nat} {wr : Writer}
    (hwr : w.writers[n]? = some wr) (hlt : wr.issued < plan.opsPerWriter)
    (hworking : wr.phase = .working) {next : Writer × Store × Tally}
    (hop : Writer.Operated plan wr w.store w.tally next) :
    Counted plan
      { w with store := next.2.1, tally := next.2.2, writers := w.writers.set n next.1 } := by
  have hnext : next.1 = (wr.draw plan).2 := by cases hop <;> rfl
  have hissued : next.1.issued = wr.issued + 1 := by rw [hnext]; rfl
  have hnat : next.1.issued.toNat = wr.issued.toNat + 1 := hissued ▸ Workload.toNat_succ hlt
  obtain ⟨found, gaveWay, hfound, hbalance, htally, hremoves, hpublished, hlost⟩ :=
    hop.balance hs.holds
  have hputs := Writer.total_set_succ hwr (hnat ▸ Workload.puts_succ hlt)
  have hremovals := Writer.total_set_succ hwr (hnat ▸ Workload.removals_succ hlt)
  refine ⟨by simpa using h.length, fun wr' hwr' => ?_, fun wr' hwr' hw => ?_, ?_, ?_⟩
  · obtain hold | rfl := List.mem_or_eq_of_mem_set hwr'
    · exact h.issued wr' hold
    · rw [UInt64.le_iff_toNat_le, hnat]
      exact UInt64.lt_iff_toNat_lt.1 hlt
  · obtain hold | rfl := List.mem_or_eq_of_mem_set hwr'
    · exact h.finished wr' hold hw
    · rw [hnext] at hw
      exact absurd hworking hw
  · rw [hputs, UInt64.ofNat_add, ← h.puts]
    exact htally
  · obtain ⟨removed, before, hle, htotal, hremoved, hindexes, hentries⟩ := h.retired
    rw [hputs, hremovals]
    refine ⟨removed + found, before + gaveWay, by omega, ?_, ?_, ?_, ?_⟩
    · change before + gaveWay + next.2.1.total = _
      omega
    · rw [UInt64.ofNat_add, ← hremoved]
      exact hremoves
    · rw [Nat.add_add_add_comm, UInt64.ofNat_add, ← hindexes]
      exact hpublished
    · rw [UInt64.ofNat_add, ← hentries]
      exact hlost

theorem step_writer (h : w.Counted plan) (hs : w.Sound plan) (hp : plan.Feasible) (n : Nat) :
    (w.step (.writer n)).Counted plan := by
  obtain rfl := hs.plan_eq
  simp only [World.step]
  cases hwr : w.writers[n]? with
  | none => exact h
  | some wr =>
    have hmem := List.mem_of_getElem? hwr
    dsimp only [World.stepWriter]
    cases hphase : wr.phase with
    | working =>
      dsimp only
      split
      · next hlt =>
        exact h.operate hs hwr hlt hphase
          (Writer.operate_spec w.tally hp hs.holds hs.maxEntryLen (hs.writers wr hmem))
      · next hge =>
        have hdone : wr.issued = w.plan.opsPerWriter :=
          UInt64.le_antisymm (h.issued wr hmem) (UInt64.not_lt.1 hge)
        exact h.retire_writer hwr (by rfl) (fun _ => hdone) _ _
    | announcing =>
      have hdone := h.finished wr hmem (by simp [hphase])
      exact h.retire_writer hwr (by rfl) (fun _ => hdone) _ _
    | gone =>
      have hdone := h.finished wr hmem (by simp [hphase])
      exact h.retire_writer hwr (by rfl) (fun _ => hdone) _ _

theorem step (h : w.Counted plan) (hs : w.Sound plan) (hp : plan.Feasible) (actor : Actor) :
    (w.step actor).Counted plan := by
  cases actor with
  | writer n => exact h.step_writer hs hp n
  | reader n => exact h.step_reader hs hp n

theorem run (h : w.Counted plan) (hs : w.Sound plan) (hp : plan.Feasible) (schedule : List Actor) :
    (w.run schedule).Counted plan := by
  induction schedule generalizing w with
  | nil => exact h
  | cons actor schedule ih => exact ih (h.step hs hp actor) (hs.step hp actor)

end Counted

end World

theorem Workload.setup_counted (plan : Workload) : plan.setup.Counted plan := by
  have hissued : ∀ wr ∈ plan.setup.writers, wr.issued = 0 := by
    intro wr hwr
    obtain ⟨n, -, rfl⟩ := List.mem_map.1 hwr
    rfl
  have hputs : Writer.total plan.puts plan.setup.writers = 0 := by
    rw [Writer.total_of_issued hissued]
    simp [puts]
  have htotal : plan.setup.store.total = 0 := by
    simp [store_setup, Store.total, Group.size, Index.empty, Function.comp_def]
  refine ⟨by simp [setup, World.initial], fun wr hwr => ?_, fun wr hwr hw => ?_, ?_, 0, 0, ?_⟩
  · rw [hissued wr hwr]
    exact UInt64.zero_le
  · obtain ⟨n, -, rfl⟩ := List.mem_map.1 hwr
    exact absurd rfl hw
  · rw [hputs]
    rfl
  · rw [hputs, htotal, store_setup]
    exact ⟨Nat.zero_le _, rfl, rfl, rfl, rfl⟩

end SnapshotStore
