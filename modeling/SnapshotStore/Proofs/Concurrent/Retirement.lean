import Mathlib.Data.List.Induction
import SnapshotStore.Proofs.Concurrent.Custody

namespace SnapshotStore.Publication

namespace Machine

/-- What a machine does to retired objects from one state to the next: nothing, or a writer retires
the one in its hands, or the collector destroys one whose guards are all gone. -/
def Disposes (m m' : Machine) : Prop :=
  m'.pending = m.pending ∧ m'.destroyed = m.destroyed ∨
  (∃ t old, m.Stands old (.unlinked t) ∧ m'.pending = m.pending ++ [(old, m.pins)] ∧
    m'.destroyed = m.destroyed) ∨
  ∃ o guards, (o, guards) ∈ m.pending ∧ (∀ p ∈ guards, p ∉ m.pins) ∧
    m'.pending = m.pending.filter (fun d => d.1 ≠ o) ∧ m'.destroyed = o :: m.destroyed

theorem disposes_advance (m : Machine) (t : Nat) : m.Disposes (m.advance t) := by
  unfold advance
  cases hp : (m.threads t).phase with
  | swapped p old outcome =>
    exact .inr (.inl ⟨t, old, by simp [Stands, hp, Phase.unlinked?], rfl, rfl⟩)
  | locking op =>
    cases hf : m.holder (m.threads t).group with
    | some _ => exact .inl (by simp only [hf, and_self])
    | none => exact .inl (by simp only [hf]; exact ⟨rfl, rfl⟩)
  | computing op p base =>
    rcases ha : op.apply (m.contents base) with ⟨_ | next, outcome⟩
    · exact .inl (by simp only [ha]; exact ⟨rfl, rfl⟩)
    · exact .inl (by simp only [ha]; exact ⟨rfl, rfl⟩)
  | _ => exact .inl ⟨rfl, rfl⟩

theorem disposes_step (m : Machine) (move : Move) : m.Disposes (m.step move) := by
  cases move with
  | write t g op =>
    simp only [step]
    split <;> exact .inl ⟨rfl, rfl⟩
  | read t g =>
    simp only [step]
    split <;> exact .inl ⟨rfl, rfl⟩
  | advance t => exact disposes_advance m t
  | collect object =>
    simp only [step]
    split
    · next o guards hfind =>
      split
      · next hgone =>
        obtain rfl : o = object := by simpa using List.find?_some hfind
        exact .inr (.inr ⟨o, guards, List.mem_of_find?_eq_some hfind, by simpa using hgone,
          rfl, rfl⟩)
      · exact .inl ⟨rfl, rfl⟩
    · exact .inl ⟨rfl, rfl⟩

theorem Disposes.retired {m m' : Machine} (h : m.Disposes m') {o : Object}
    (ho : m.Stands o .pending ∨ m.Stands o .destroyed) :
    m'.Stands o .pending ∨ m'.Stands o .destroyed := by
  simp only [Stands] at *
  obtain ⟨hp, hd⟩ | ⟨-, old, -, hp, hd⟩ | ⟨gone, -, -, -, hp, hd⟩ := h
  · rwa [hp, hd]
  · rw [hp, hd, List.map_append]
    exact ho.imp_left (List.mem_append_left _)
  · rw [hp, hd]
    obtain ho | ho := ho
    · obtain ⟨d, hd, rfl⟩ := List.mem_map.1 ho
      by_cases he : d.1 = gone
      · exact .inr (he ▸ List.mem_cons_self)
      · exact .inl (List.mem_map_of_mem (List.mem_filter.2 ⟨hd, decide_eq_true he⟩))
    · exact .inr (List.mem_cons_of_mem _ ho)

end Machine

namespace Scarce

variable {s : Scarce} {turn : Turn} {o : Object}

theorem disposes_step (s : Scarce) (turn : Turn) : s.machine.Disposes (s.step turn).machine := by
  obtain he | ⟨move, -, he⟩ | ⟨t, -, he⟩ := machine_step s turn
  · exact .inl ⟨congrArg Machine.pending he, congrArg Machine.destroyed he⟩
  · rw [he]
    exact Machine.disposes_step s.machine move
  · rw [he, retreat]
    split <;> exact .inl ⟨rfl, rfl⟩

theorem retired_run (turns : List Turn)
    (ho : s.machine.Stands o .pending ∨ s.machine.Stands o .destroyed) :
    (s.run turns).machine.Stands o .pending ∨ (s.run turns).machine.Stands o .destroyed := by
  induction turns generalizing s with
  | nil => exact ho
  | cons turn turns ih => exact ih ((disposes_step s turn).retired ho)

def Retires (s : Scarce) (turn : Turn) (o : Object) : Prop :=
  ∃ guards, (s.step turn).machine.pending = s.machine.pending ++ [(o, guards)]

theorem Retires.unlinked (h : s.Retires turn o) : ∃ t, s.machine.Stands o (.unlinked t) := by
  obtain ⟨guards, hg⟩ := h
  obtain ⟨hp, -⟩ | ⟨t, old, ho, hp, -⟩ | ⟨gone, -, -, -, hp, -⟩ := disposes_step s turn
  · rw [hp] at hg
    exact absurd (congrArg List.length hg) (by simp)
  · rw [hp, List.append_cancel_left_eq] at hg
    cases hg
    exact ⟨t, ho⟩
  · rw [hp] at hg
    have hlen := List.length_filter_le (fun d => decide (d.1 ≠ gone)) s.machine.pending
    rw [hg, List.length_append] at hlen
    exact absurd hlen (by simp)

theorem Retires.pending (h : s.Retires turn o) : (s.step turn).machine.Stands o .pending := by
  obtain ⟨guards, hg⟩ := h
  simp [Machine.Stands, hg]

end Scarce

theorem custody_afterTurns (groups : Nat) (turns : List Turn) :
    (afterTurns groups turns).Custody := by
  induction turns using List.reverseRecOn with
  | nil => exact Machine.initial_custody groups
  | append_singleton turns turn ih =>
    rw [afterTurns, Scarce.run_concat]
    exact ih.turn turn

/-- What readers and writers can rely on whatever the order of the steps, also when memory for new
indexes is refused. -/
structure Reclaims (groups : Nat) (turns : List Turn) : Prop where
  /-- An index that was ever published is at one station, and there with one group or thread. -/
  station : ∀ g < groups, ∀ o ∈ (afterTurns groups turns).chronicle.published g,
    ∃! s, (afterTurns groups turns).Stands o s
  /-- The current index of a group is one that the group has published, and is not destroyed. -/
  current : ∀ g < groups,
    (afterTurns groups turns).current g ∈ (afterTurns groups turns).chronicle.published g ∧
    (afterTurns groups turns).current g ∉ (afterTurns groups turns).destroyed
  /-- What a snapshot points to is an index of its group that is not destroyed. -/
  snapshot : ∀ t g p o, (afterTurns groups turns).threads t = ⟨g, .holding p o⟩ →
    o ∈ (afterTurns groups turns).chronicle.published g ∧
    o ∉ (afterTurns groups turns).destroyed
  /-- What a writer derives the next index from is not destroyed. -/
  writer : ∀ t op p base, ((afterTurns groups turns).threads t).phase = .computing op p base →
    base ∉ (afterTurns groups turns).destroyed
  /-- What is retired next is current nowhere and was not retired before. -/
  retires : ∀ turn o, ((Scarce.initial groups).run turns).Retires turn o →
    (∀ g < groups, (afterTurns groups turns).current g ≠ o) ∧
    ∀ earlier turn', earlier ++ [turn'] <+: turns →
      ¬ ((Scarce.initial groups).run earlier).Retires turn' o
  /-- Nothing waits twice for its destruction, or is destroyed twice. -/
  once : ((afterTurns groups turns).pending.map Prod.fst ++
    (afterTurns groups turns).destroyed).Nodup

theorem run_reclaims (groups : Nat) (turns : List Turn) : Reclaims groups turns := by
  have hc := custody_afterTurns groups turns
  have hg : ∀ g < groups, g < (afterTurns groups turns).groups := fun g hg => by
    rwa [groups_afterTurns]
  obtain ⟨place, ht⟩ := hc.tracked
  refine ⟨fun g hlt o ho => ?_, fun g hlt => ?_, fun t g p o hth => ?_, fun t op p base hp => ?_,
    fun turn o hr => ?_, hc.once⟩
  · exact ht.existsUnique ((hc.shelved g (hg g hlt)).lt_fresh o ho)
  · exact ⟨(hc.shelved g (hg g hlt)).current_mem, (hc.current_kept (hg g hlt)).1⟩
  · have hview : ((afterTurns groups turns).threads t).phase.view? = some o := by rw [hth]; rfl
    have hpublished := hc.viewed t o hview
    rw [hth] at hpublished
    exact ⟨hpublished, hc.guarded.alive t o hview⟩
  · exact hc.guarded.alive t base (by rw [hp]; rfl)
  · obtain ⟨t, hu⟩ := hr.unlinked
    refine ⟨fun g hlt he => ?_, fun earlier turn' hprefix hbefore => ?_⟩
    · have hs : (afterTurns groups turns).Stands o (.current g) := ⟨hg g hlt, he⟩
      cases ht.eq hs hu
    · obtain ⟨later, rfl⟩ := hprefix
      have hstep := hbefore.pending
      rw [← Scarce.run_concat] at hstep
      have hlater := Scarce.retired_run later (.inl hstep)
      rw [← Scarce.run_append] at hlater
      obtain hs | hs := hlater
      · cases ht.eq hs hu
      · cases ht.eq hs hu

/-- A reader and a writer, and a second write that is refused memory: the index that the reader
holds is retired and waits as long as the reader has its guard. -/
def withheld : List Turn :=
  [.move (.read 0 0), .move (.advance 0), .move (.advance 0)] ++
    .move (.write 1 0 (.put ⟨⟨0⟩, 7, [1]⟩)) :: List.replicate 8 (.move (.advance 1)) ++
    .move (.write 2 0 (.remove 7)) :: List.replicate 3 (.move (.advance 2)) ++
    .refuse 2 :: List.replicate 2 (.move (.advance 2)) ++ [.move (.collect 0)]

example :
    (afterTurns 1 withheld).pending = [(0, [1, 0])] ∧ (afterTurns 1 withheld).current 0 = 1 ∧
      (afterTurns 1 withheld).holder 0 = none ∧
      (afterTurns 1 (withheld ++ [.move (.advance 0), .move (.collect 0)])).destroyed = [0] := by
  decide +kernel

end SnapshotStore.Publication
