import SnapshotStore.Proofs.Workload.Counted

namespace SnapshotStore

variable {plan : Workload}

/-- An upper bound on the steps that a writer still takes. -/
def Writer.remaining (plan : Workload) (wr : Writer) : Nat :=
  match wr.phase with
  | .working => plan.opsPerWriter.toNat - wr.issued.toNat + 2
  | .announcing => 1
  | .gone => 0

/-- Who is still to sign off counts as one. -/
def Writer.working (wr : Writer) : Nat := if wr.phase = .working then 1 else 0

def ReaderPhase.remaining : ReaderPhase → Nat
  | .lookup _ => 6
  | .copy _ _ => 5
  | .reload _ _ _ => 4
  | .list _ => 3
  | .reloadKeys _ _ => 2
  | .scan _ => 1
  | .poll | .gone => 0

def Reader.remaining (plan : Workload) (r : Reader) : Nat :=
  match r.phase with
  | .gone => 0
  | .poll => 6 * plan.groups + 1
  | phase => phase.remaining + 6 * r.rest.length + if r.last then 0 else 6 * plan.groups + 1

theorem Reader.remaining_advance (plan : Workload) (r : Reader) : r.advance.remaining plan ≤
    6 * r.rest.length + if r.last then 0 else 6 * plan.groups + 1 := by
  unfold Reader.advance
  split
  · next rest heq =>
    simp only [Reader.remaining, ReaderPhase.remaining, heq, List.length_cons]
    omega
  · next heq =>
    cases hlast : r.last <;> simp [Reader.remaining]

theorem Reader.remaining_of_pos {r : Reader} (h : 0 < r.phase.remaining) : r.remaining plan =
    r.phase.remaining + 6 * r.rest.length + if r.last then 0 else 6 * plan.groups + 1 := by
  cases hphase : r.phase <;> simp_all [Reader.remaining, ReaderPhase.remaining]

theorem Reader.remaining_lt {r next : Reader} (hrest : next.rest = r.rest)
    (hlast : next.last = r.last) (hpos : 0 < next.phase.remaining)
    (hlt : next.phase.remaining < r.phase.remaining) : next.remaining plan < r.remaining plan := by
  rw [remaining_of_pos hpos, remaining_of_pos (Nat.lt_trans hpos hlt), hrest, hlast]
  omega

namespace World

variable {w : World}

theorem remaining_stepReader (hdone : w.done = true) {r : Reader} (hr : r.phase ≠ .gone) :
    (w.stepReader r).1.remaining w.plan < r.remaining w.plan := by
  unfold World.stepReader
  cases hphase : r.phase with
  | poll =>
    have hle := Reader.remaining_advance w.plan { r with last := w.done, rest := w.groups }
    have hlen : w.groups.length = w.plan.groups := by simp [groups]
    simp only [hdone, hlen, ↓reduceIte] at hle
    simp only [hdone, Reader.remaining, hphase] at hle ⊢
    omega
  | lookup id =>
    refine Reader.remaining_lt rfl rfl ?_ ?_
    all_goals simp [World.lookup, ReaderPhase.remaining, hphase]
  | copy id key =>
    simp only [World.copy]
    split
    all_goals refine Reader.remaining_lt rfl rfl ?_ ?_
    all_goals simp [ReaderPhase.remaining, hphase]
  | reload id key len =>
    refine Reader.remaining_lt rfl rfl ?_ ?_
    all_goals simp [World.reload, ReaderPhase.remaining, hphase]
  | list id =>
    simp only [World.list]
    split
    all_goals refine Reader.remaining_lt rfl rfl ?_ ?_
    all_goals simp [ReaderPhase.remaining, hphase]
  | reloadKeys id count =>
    refine Reader.remaining_lt rfl rfl ?_ ?_
    all_goals simp [World.reloadKeys, ReaderPhase.remaining, hphase]
  | scan id =>
    refine Nat.lt_of_le_of_lt (Reader.remaining_advance _ r) ?_
    rw [Reader.remaining_of_pos (by simp [hphase, ReaderPhase.remaining]), hphase]
    simp only [ReaderPhase.remaining]
    omega
  | gone => exact absurd hphase hr

theorem remaining_stepWriter {wr : Writer} (hwr : wr.phase ≠ .gone) :
    (w.stepWriter wr).1.remaining w.plan < wr.remaining w.plan := by
  unfold World.stepWriter
  cases hphase : wr.phase with
  | working =>
    dsimp only
    split
    · next hlt =>
      have hissued := Workload.toNat_succ hlt
      have hle := UInt64.lt_iff_toNat_lt.1 hlt
      rw [Writer.operate_fst]
      simp only [Writer.remaining, Writer.draw, hphase, hissued]
      omega
    · by_cases hleft : w.writersLeft = 1
      · simp [Writer.remaining, hphase, hleft]
      · simp [Writer.remaining, hphase, hleft]
  | announcing => simp [Writer.remaining, hphase]
  | gone => exact absurd hphase hwr

/-- The writers that are still to sign off are counted, and someone is left to announce the end. -/
structure Attended (w : World) : Prop where
  left : w.writersLeft = (w.writers.map Writer.working).sum
  announced : w.done = true ∨ ∃ wr ∈ w.writers, wr.phase ≠ .gone

namespace Attended

theorem step_reader (h : w.Attended) (hs : w.Sound plan) (hp : plan.Feasible) (n : Nat) :
    (w.step (.reader n)).Attended := by
  simp only [World.step]
  cases hr : w.readers[n]? with
  | none => exact h
  | some r =>
    obtain ⟨hn, hready⟩ := hs.readers n r hr
    obtain ⟨tally, bs, hworld, -⟩ := hs.stepReader hp hready (hs.window_le hn)
    simp only [hworld]
    exact ⟨h.left, h.announced⟩

theorem set_writer (h : w.Attended) {w' : World} {n : Nat} {wr wr' : Writer}
    (hwr : w.writers[n]? = some wr) (hwriters : w'.writers = w.writers.set n wr')
    (hleft : w'.writersLeft + wr.working = w.writersLeft + wr'.working)
    (hnext : wr'.phase ≠ .gone ∨ 0 < w'.writersLeft ∨ w'.done = true) : w'.Attended := by
  have hset := sum_map_set Writer.working hwr wr'
  have hbefore := h.left
  have hcount : w'.writersLeft = (w'.writers.map Writer.working).sum := by
    rw [hwriters]
    omega
  refine ⟨hcount, ?_⟩
  obtain hne | hpos | hdone := hnext
  · have hmem := List.mem_set (List.getElem?_eq_some_iff.1 hwr).1 wr'
    exact .inr ⟨wr', hwriters ▸ hmem, hne⟩
  · -- Someone who has not signed off is still at work.
    obtain ⟨k, hk, hkpos⟩ := List.sum_pos_iff_exists_pos_nat.1 (hcount ▸ hpos)
    obtain ⟨other, hother, rfl⟩ := List.mem_map.1 hk
    refine .inr ⟨other, hother, fun hgone => ?_⟩
    simp [Writer.working, hgone] at hkpos
  · exact .inl hdone

theorem writersLeft_pos (h : w.Attended) {wr : Writer} (hmem : wr ∈ w.writers)
    (hphase : wr.phase = .working) : 0 < w.writersLeft := by
  rw [h.left, List.sum_pos_iff_exists_pos_nat]
  exact ⟨wr.working, List.mem_map_of_mem hmem, by simp [Writer.working, hphase]⟩

theorem step_writer (h : w.Attended) (n : Nat) : (w.step (.writer n)).Attended := by
  simp only [World.step]
  cases hwr : w.writers[n]? with
  | none => exact h
  | some wr =>
    dsimp only [World.stepWriter]
    cases hphase : wr.phase with
    | working =>
      dsimp only
      split
      · have hnext : (wr.operate w.plan w.store w.tally).1.phase = .working := by
          rw [Writer.operate_fst]
          exact hphase
        exact h.set_writer hwr rfl (by simp [Writer.working, hphase, hnext]) (by simp [hnext])
      · have hpos := h.writersLeft_pos (List.mem_of_getElem? hwr) hphase
        by_cases hlast : w.writersLeft = 1
        · exact h.set_writer hwr rfl (by simp [Writer.working, hphase, hlast]) (by simp [hlast])
        · refine h.set_writer hwr rfl ?_ (.inr (.inl ?_))
          · simp only [Writer.working, hphase, hlast, ↓reduceIte, reduceCtorEq]
            omega
          · change 0 < w.writersLeft - 1
            omega
    | announcing =>
      exact h.set_writer hwr rfl (by simp [Writer.working, hphase]) (.inr (.inr rfl))
    | gone =>
      obtain ⟨hn, rfl⟩ := List.getElem?_eq_some_iff.1 hwr
      rw [List.set_getElem_self hn]
      exact h

theorem step (h : w.Attended) (hs : w.Sound plan) (hp : plan.Feasible) (actor : Actor) :
    (w.step actor).Attended := by
  cases actor with
  | writer n => exact h.step_writer n
  | reader n => exact h.step_reader hs hp n

theorem run (h : w.Attended) (hs : w.Sound plan) (hp : plan.Feasible) (schedule : List Actor) :
    (w.run schedule).Attended := by
  induction schedule generalizing w with
  | nil => exact h
  | cons actor schedule ih => exact ih (h.step hs hp actor) (hs.step hp actor)

end Attended

/-- An upper bound on the steps that all threads together still take. -/
def remaining (w : World) : Nat :=
  (w.writers.map (Writer.remaining w.plan)).sum + (w.readers.map (Reader.remaining w.plan)).sum

theorem remaining_step_writer {n : Nat} {wr : Writer} (hwr : w.writers[n]? = some wr)
    (hne : wr.phase ≠ .gone) : (w.step (.writer n)).remaining < w.remaining := by
  obtain ⟨hplan, hwriters, hreaders, -⟩ := stepWriter_frame (w := w) wr
  have hset := sum_map_set (Writer.remaining w.plan) hwr (w.stepWriter wr).1
  have hlt := remaining_stepWriter (w := w) hne
  simp only [World.step, hwr, remaining, hplan, hwriters, hreaders]
  omega

theorem remaining_step_reader (hs : w.Sound plan) (hp : plan.Feasible) (hdone : w.done = true)
    {n : Nat} {r : Reader} (hr : w.readers[n]? = some r) (hne : r.phase ≠ .gone) :
    (w.step (.reader n)).remaining < w.remaining := by
  obtain ⟨hn, hready⟩ := hs.readers n r hr
  obtain ⟨tally, bs, hworld, -⟩ := hs.stepReader hp hready (hs.window_le hn)
  have hset := sum_map_set (Reader.remaining w.plan) hr (w.stepReader r).1
  have hlt := remaining_stepReader hdone hne
  simp only [World.step, hr, remaining, hworld]
  omega

/-- As long as a run is not over some thread can bring it nearer to its end. -/
theorem Attended.exists_step (h : w.Attended) (hs : w.Sound plan) (hp : plan.Feasible)
    (hover : w.isOver = false) : ∃ actor, (w.step actor).remaining < w.remaining := by
  by_cases hwriters : ∀ wr ∈ w.writers, wr.phase = .gone
  · have hdone : w.done = true := by
      obtain hdone | ⟨wr, hwr, hne⟩ := h.announced
      · exact hdone
      · exact absurd (hwriters wr hwr) hne
    obtain ⟨r, hr, hne⟩ : ∃ r ∈ w.readers, r.phase ≠ .gone := by
      by_contra hall
      simp only [not_exists, not_and, Classical.not_not] at hall
      have htrue : w.isOver = true := by
        simpa [isOver] using ⟨hwriters, hall⟩
      simp [hover] at htrue
    obtain ⟨n, hn⟩ := List.getElem?_of_mem hr
    exact ⟨.reader n, remaining_step_reader hs hp hdone hn hne⟩
  · simp only [Classical.not_forall] at hwriters
    obtain ⟨wr, hwr, hne⟩ := hwriters
    obtain ⟨n, hn⟩ := List.getElem?_of_mem hwr
    exact ⟨.writer n, remaining_step_writer hn hne⟩

theorem Attended.exists_isOver (h : w.Attended) (hs : w.Sound plan) (hp : plan.Feasible) :
    ∃ rest, (w.run rest).isOver := by
  induction hk : w.remaining using Nat.strongRecOn generalizing w with
  | ind k ih =>
    cases hover : w.isOver with
    | true => exact ⟨[], hover⟩
    | false =>
      obtain ⟨actor, hlt⟩ := h.exists_step hs hp hover
      obtain ⟨rest, hrest⟩ := ih _ (hk ▸ hlt) (h.step hs hp actor) (hs.step hp actor) rfl
      exact ⟨actor :: rest, hrest⟩

end World

theorem Workload.setup_attended (plan : Workload) : plan.setup.Attended := by
  have hphase : ∀ wr ∈ plan.setup.writers, wr.phase = .working := by
    intro wr hwr
    obtain ⟨n, -, rfl⟩ := List.mem_map.1 hwr
    rfl
  have hlength : plan.setup.writers.length = plan.groups * plan.writersPerGroup := by
    simp [setup, World.initial]
  refine ⟨?_, ?_⟩
  · have hmap : plan.setup.writers.map Writer.working = plan.setup.writers.map fun _ => 1 :=
      List.map_congr_left fun wr hwr => by rw [Writer.working, if_pos (hphase wr hwr)]
    rw [hmap, List.map_const', List.sum_replicate_nat, hlength, Nat.mul_one]
    rfl
  · by_cases hnone : plan.groups * plan.writersPerGroup = 0
    · exact .inl (by simp [setup, World.initial, hnone])
    · obtain ⟨wr, hwr⟩ := List.exists_mem_of_length_pos
        (hlength ▸ Nat.pos_of_ne_zero hnone : 0 < plan.setup.writers.length)
      exact .inr ⟨wr, hwr, by simp [hphase wr hwr]⟩

/-- However a run has begun, it can be brought to an end. -/
theorem Workload.Feasible.exists_isOver {plan : Workload} (hp : plan.Feasible)
    (schedule : List Actor) : ∃ rest, (plan.setup.run (schedule ++ rest)).isOver := by
  have hs := hp.setup_sound.run hp schedule
  have ha := plan.setup_attended.run hp.setup_sound hp schedule
  obtain ⟨rest, hrest⟩ := ha.exists_isOver hs hp
  refine ⟨rest, ?_⟩
  rwa [World.run, List.foldl_append]

end SnapshotStore
