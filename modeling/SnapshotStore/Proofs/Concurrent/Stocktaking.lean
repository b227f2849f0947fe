import Mathlib.Algebra.Order.BigOperators.Group.Finset
import SnapshotStore.Concurrent.Quiescence
import SnapshotStore.Proofs.Concurrent.Ledger

namespace SnapshotStore

namespace Reclamation

variable {r : Reclamation}

theorem backlog_eq (hindexes : r.reclaimedIndexes ≤ r.retiredIndexes)
    (hentries : r.reclaimedEntries ≤ r.retiredEntries) :
    r.backlog = .ok (r.retiredIndexes.toNat - r.reclaimedIndexes.toNat,
      r.retiredEntries.toNat - r.reclaimedEntries.toNat) := by
  rw [UInt64.le_iff_toNat_le] at hindexes hentries
  have hi := Word.sub_eq_ok.2 ⟨hindexes, rfl⟩
  have he := Word.sub_eq_ok.2 ⟨hentries, rfl⟩
  simp only [backlog, hi, he]
  rfl

theorem pending_eq_backlog (r : Reclamation) :
    r.pending = r.backlog >>= fun backlog => Word.add backlog.1 backlog.2 := by
  simp only [pending, backlog, bind_assoc, pure_bind]

theorem pending_eq (hindexes : r.reclaimedIndexes ≤ r.retiredIndexes)
    (hentries : r.reclaimedEntries ≤ r.retiredEntries)
    (hsmall : r.retiredIndexes.toNat < 2 ^ 63 ∧ r.retiredEntries.toNat < 2 ^ 63) :
    r.pending = .ok (r.retiredIndexes.toNat - r.reclaimedIndexes.toNat +
      (r.retiredEntries.toNat - r.reclaimedEntries.toNat)) := by
  have hlt : r.retiredIndexes.toNat - r.reclaimedIndexes.toNat +
      (r.retiredEntries.toNat - r.reclaimedEntries.toNat) < wordSize := by
    simp only [wordSize]
    omega
  rw [pending_eq_backlog, backlog_eq hindexes hentries]
  exact Word.add_eq_ok.2 ⟨hlt, rfl⟩

end Reclamation

/-- Waiting comes to an end with one of the answers, if each of them can be used. -/
theorem Reclaimer.await_eq {answers : Nat → Reclamation} (rounds call : Nat)
    (hsettled : ∀ n ≤ call + rounds, ∃ settled, (answers n).isSettled = .ok settled)
    (hbacklog : ∀ n ≤ call + rounds, ∃ backlog, (answers n).backlog = .ok backlog) :
    ∃ n ≤ call + rounds, ∃ backlog, (answers n).backlog = .ok backlog ∧
      await answers rounds call = .ok (answers n, backlog) := by
  induction rounds generalizing call with
  | zero =>
    obtain ⟨backlog, hb⟩ := hbacklog call (Nat.le_refl call)
    exact ⟨call, Nat.le_refl call, backlog, hb, by simp only [await, hb, Except.map]⟩
  | succ rounds ih =>
    have hnext : call + 1 + rounds = call + (rounds + 1) := by omega
    obtain ⟨settled, hs⟩ := hsettled call (Nat.le_add_right ..)
    cases settled with
    | true =>
      obtain ⟨backlog, hb⟩ := hbacklog (call + 1) (by omega)
      refine ⟨call + 1, by omega, backlog, hb, ?_⟩
      simp only [await, hs, bind, Except.bind, ↓reduceIte, hb, Except.map]
    | false =>
      obtain ⟨n, hn, backlog, hb, hawait⟩ := ih (call + 1) (hnext ▸ hsettled) (hnext ▸ hbacklog)
      refine ⟨n, hnext ▸ hn, backlog, hb, ?_⟩
      simp only [await, hs, bind, Except.bind, Bool.false_eq_true, ↓reduceIte, hawait]

namespace Counting

def Task.isStocktaking : Task → Bool
  | .loadReclaimedIndexes | .loadReclaimedEntries _ | .loadRetiredIndexes _ _
  | .loadRetiredEntries _ _ _ => true
  | _ => false

def Task.hasLoaded : Task → Bool
  | .loadReclaimedEntries _ | .loadRetiredIndexes _ _ | .loadRetiredEntries _ _ _
  | .answered _ => true
  | _ => false

/-- What a thread has loaded was counted as reclaimed when the counts were `c`, or has been counted
as retired since, with `now` for the counts of today. -/
def Task.Brackets (c now : Reclamation) : Task → Prop
  | .loadReclaimedEntries ri => ri ≤ c.reclaimedIndexes
  | .loadRetiredIndexes ri re => ri ≤ c.reclaimedIndexes ∧ re ≤ c.reclaimedEntries
  | .loadRetiredEntries ri re xi => ri ≤ c.reclaimedIndexes ∧ re ≤ c.reclaimedEntries ∧
    c.retiredIndexes ≤ xi ∧ xi ≤ now.retiredIndexes
  | .answered r => ∀ kind : Kind, kind.reclaimed r ≤ kind.reclaimed c ∧
    kind.retired c ≤ kind.retired r ∧ kind.retired r ≤ kind.retired now
  | _ => True

theorem Task.Brackets.later {c now later : Reclamation} {task : Task} (h : task.Brackets c now)
    (hle : ∀ kind : Kind, kind.retired now ≤ kind.retired later) : task.Brackets c later := by
  cases task with
  | loadRetiredEntries ri re xi =>
    obtain ⟨hri, hre, hxi, hnow⟩ := h
    exact ⟨hri, hre, hxi, UInt64.le_trans hnow (hle .index)⟩
  | answered r =>
    intro kind
    obtain ⟨hreclaimed, hretired, hnow⟩ := h kind
    exact ⟨hreclaimed, hretired, UInt64.le_trans hnow (hle kind)⟩
  | _ => exact h

/-- A time at which a thread was taking stock. Since a thread number is used for one task only,
there is only one call that this can be. -/
def DuringStock (moves : List Move) (t : Nat) (earlier : List Move) : Prop :=
  earlier <+: moves ∧ ((initial.run earlier).tasks t).isStocktaking

variable {moves earlier : List Move} {move : Move} {t : Nat}

theorem DuringStock.later (h : DuringStock moves t earlier) :
    DuringStock (moves ++ [move]) t earlier :=
  ⟨h.1.trans (List.prefix_append moves [move]), h.2⟩

@[simp] theorem tasks_become_self (s : State) (t : Nat) (task : Task) :
    (s.become t task).tasks t = task :=
  Function.update_self ..

theorem tasks_become_of_ne (s : State) {u t : Nat} (h : t ≠ u) (task : Task) :
    (s.become u task).tasks t = s.tasks t :=
  Function.update_of_ne h ..

theorem tasks_start (s : State) (u t : Nat) {task : Task} (h : task.hasLoaded = false) :
    (s.become u task).tasks t = s.tasks t ∨ ((s.become u task).tasks t).hasLoaded = false := by
  by_cases he : t = u
  · subst he
    exact .inr (by rwa [tasks_become_self])
  · exact .inl (tasks_become_of_ne s he task)

theorem tasks_advance_of_ne (s : State) {u t : Nat} (h : t ≠ u) :
    (s.advance u).tasks t = s.tasks t := by
  unfold State.advance
  cases s.tasks u with
  | idle | answered r | ended => rfl
  | _ => exact tasks_become_of_ne _ h _

theorem tasks_step (s : State) (move : Move) (t : Nat) :
    (s.step move).tasks t = s.tasks t ∨ ((s.step move).tasks t).hasLoaded = false ∨
      move = .advance t := by
  cases move with
  | retire u entry =>
    simp only [State.step]
    split
    · exact (tasks_start s u t rfl).imp_right .inl
    · exact .inl rfl
  | takeStock u =>
    simp only [State.step]
    split
    · exact (tasks_start s u t rfl).imp_right .inl
    · exact .inl rfl
  | destroy u pos =>
    simp only [State.step]
    split
    · split
      · exact (tasks_start s u t rfl).imp_right .inl
      · exact .inl rfl
    · exact .inl rfl
  | advance u =>
    by_cases he : t = u
    · exact .inr (.inr (he ▸ rfl))
    · exact .inl (tasks_advance_of_ne s he)

/-- There is an instant at which a thread that takes stock has all of the reclaimed behind it and
all of the retired before it. -/
def Witnessed (moves : List Move) (t : Nat) : Prop :=
  ((initial.run moves).tasks t).hasLoaded → ∃ earlier, DuringStock moves t earlier ∧
    ((initial.run moves).tasks t).Brackets (initial.run earlier).counts (initial.run moves).counts

/-- The instant is put off as long as a thread loads what is reclaimed, and kept from then on. -/
theorem Witnessed.advance (hw : Witnessed moves t) (h : StaysSmall moves) :
    Witnessed (moves ++ [.advance t]) t := by
  have hnext : initial.run (moves ++ [.advance t]) = (initial.run moves).advance t :=
    run_concat moves (.advance t)
  intro hloaded
  rw [State.advance] at hnext
  cases hp : (initial.run moves).tasks t with
  | loadReclaimedIndexes =>
    simp only [hp] at hnext
    refine ⟨moves ++ [.advance t], ⟨List.prefix_refl _, ?_⟩, ?_⟩ <;> rw [hnext, tasks_become_self]
    · rfl
    · exact UInt64.le_refl _
  | loadReclaimedEntries ri =>
    simp only [hp] at hnext
    obtain ⟨earlier, hduring, hri⟩ := hw (by rw [hp]; rfl)
    rw [hp] at hri
    refine ⟨moves ++ [.advance t], ⟨List.prefix_refl _, ?_⟩, ?_⟩ <;> rw [hnext, tasks_become_self]
    · rfl
    · exact ⟨UInt64.le_trans hri (counters_le h hduring.1 .index).2, UInt64.le_refl _⟩
  | loadRetiredIndexes ri re =>
    simp only [hp] at hnext
    obtain ⟨earlier, hduring, hb⟩ := hw (by rw [hp]; rfl)
    rw [hp] at hb
    refine ⟨earlier, hduring.later, ?_⟩
    rw [hnext, tasks_become_self]
    exact ⟨hb.1, hb.2, (counters_le h hduring.1 .index).1, UInt64.le_refl _⟩
  | loadRetiredEntries ri re xi =>
    simp only [hp] at hnext
    obtain ⟨earlier, hduring, hb⟩ := hw (by rw [hp]; rfl)
    rw [hp] at hb
    obtain ⟨hri, hre, hxi, hnow⟩ := hb
    refine ⟨earlier, hduring.later, ?_⟩
    rw [hnext, tasks_become_self]
    rintro (_ | _)
    · exact ⟨hri, hxi, hnow⟩
    · exact ⟨hre, (counters_le h hduring.1 .entry).1, UInt64.le_refl _⟩
  | answered r =>
    simp only [hp] at hnext
    obtain ⟨earlier, hduring, hb⟩ := hw (by rw [hp]; rfl)
    exact ⟨earlier, hduring.later, by rwa [hnext]⟩
  | retireIndex entry | destroyIndex entry =>
    rw [hnext, hp] at hloaded
    cases entry <;> simp [Task.hasLoaded] at hloaded
  | idle | retireEntry | defer entry | destroyEntry | ended =>
    rw [hnext, hp] at hloaded
    simp [hp, Task.hasLoaded] at hloaded

theorem witnessed_run (h : StaysSmall moves) (t : Nat) : Witnessed moves t := by
  induction moves using List.reverseRecOn with
  | nil => exact fun hloaded => absurd hloaded Bool.false_ne_true
  | append_singleton moves move ih =>
    have hbefore : StaysSmall moves := h.of_prefix (List.prefix_append moves [move])
    have hw := ih hbefore
    obtain hsame | hnone | rfl := tasks_step (initial.run moves) move t
    · rw [← run_concat] at hsame
      intro hloaded
      rw [hsame] at hloaded ⊢
      obtain ⟨earlier, hduring, hb⟩ := hw hloaded
      exact ⟨earlier, hduring.later, hb.later fun kind =>
        (counters_le h (List.prefix_append moves [move]) kind).1⟩
    · rw [← run_concat] at hnone
      exact fun hloaded => absurd (hnone.symm.trans hloaded) Bool.false_ne_true
    · exact hw.advance hbefore

/-- Nothing is pending: what was retired is reclaimed, no destructor is left, and none is about to
be left or is at work. -/
structure State.Settled (s : State) : Prop where
  indexes : s.counts.reclaimedIndexes = s.counts.retiredIndexes
  entries : s.counts.reclaimedEntries = s.counts.retiredEntries
  deferred : s.deferred = []
  held : ∀ t kind, (s.tasks t).held kind = 0

theorem settled_of_reclaimed_eq_retired (h : StaysSmall moves)
    (heq : ∀ kind : Kind, kind.reclaimed (initial.run moves).counts =
      kind.retired (initial.run moves).counts) : (initial.run moves).Settled := by
  have hnone : ∀ (t : Nat) (kind : Kind), ((initial.run moves).deferred.map kind.weight).sum = 0 ∧
      ((initial.run moves).tasks t).held kind = 0 := by
    intro t kind
    obtain ⟨bound, ht, hbound⟩ := exists_bound moves t
    have hs : State.Balanced kind bound (initial.run moves) := balanced_run h hbound
    rw [State.Balanced, heq kind, State.pending] at hs
    have hsum : ∑ u ∈ Finset.range bound, ((initial.run moves).tasks u).held kind = 0 := by omega
    exact ⟨by omega, Finset.sum_eq_zero_iff.1 hsum t (Finset.mem_range.2 ht)⟩
  refine ⟨heq .index, heq .entry, ?_, fun t kind => (hnone t kind).2⟩
  have hweights := (hnone 0 .index).1
  cases hd : (initial.run moves).deferred with
  | nil => rfl
  | cons entry rest => simp [hd, Kind.weight] at hweights

/-- What can be relied on if a thread was answered these counters. -/
structure Reliable (moves : List Move) (t : Nat) (r : Reclamation) : Prop where
  /-- No more is reclaimed than was retired. -/
  indexes : r.reclaimedIndexes ≤ r.retiredIndexes
  entries : r.reclaimedEntries ≤ r.retiredEntries
  /-- None of the subtractions fails, and the sum does not either. -/
  pending : r.pending = .ok (r.retiredIndexes.toNat - r.reclaimedIndexes.toNat +
    (r.retiredEntries.toNat - r.reclaimedEntries.toNat))
  isSettled : r.isSettled = .ok (r.retiredIndexes.toNat - r.reclaimedIndexes.toNat +
    (r.retiredEntries.toNat - r.reclaimedEntries.toNat) == 0)
  backlog : r.backlog = .ok (r.retiredIndexes.toNat - r.reclaimedIndexes.toNat,
    r.retiredEntries.toNat - r.reclaimedEntries.toNat)
  /-- If nothing is pending by these counters, then there was nothing pending at some time while
  the thread was loading them. -/
  settled : r.isSettled = .ok true → ∃ earlier, DuringStock moves t earlier ∧
    (initial.run earlier).Settled

theorem reliable_of_answered (h : StaysSmall moves) {r : Reclamation}
    (ht : (initial.run moves).tasks t = .answered r) : Reliable moves t r := by
  obtain ⟨earlier, hduring, hb⟩ := witnessed_run h t (by rw [ht]; rfl)
  rw [ht] at hb
  have hearlier : StaysSmall earlier := h.of_prefix hduring.1
  have hle : ∀ kind : Kind, kind.reclaimed r ≤ kind.retired r := by
    intro kind
    obtain ⟨hreclaimed, hretired, -⟩ := hb kind
    exact UInt64.le_trans hreclaimed
      (UInt64.le_trans (reclaimed_le_retired hearlier kind) hretired)
  have hsmall : ∀ kind : Kind, (kind.retired r).toNat < 2 ^ 63 := fun kind =>
    Nat.lt_of_le_of_lt (UInt64.le_iff_toNat_le.1 (hb kind).2.2) (h.lt kind)
  have hpending := Reclamation.pending_eq (hle .index) (hle .entry) ⟨hsmall .index, hsmall .entry⟩
  refine ⟨hle .index, hle .entry, hpending, by rw [Reclamation.isSettled, hpending]; rfl,
    Reclamation.backlog_eq (hle .index) (hle .entry), fun hsettled => ⟨earlier, hduring, ?_⟩⟩
  -- the answers have closed in on what the counters were at the instant in between
  rw [Reclamation.isSettled, hpending] at hsettled
  have hzero : r.retiredIndexes.toNat - r.reclaimedIndexes.toNat +
      (r.retiredEntries.toNat - r.reclaimedEntries.toNat) = 0 := by
    simpa [Except.map] using hsettled
  have hback : ∀ kind : Kind, kind.retired r ≤ kind.reclaimed r := by
    intro kind
    rw [UInt64.le_iff_toNat_le]
    cases kind with
    | index => exact Nat.le_of_sub_eq_zero (Nat.add_eq_zero_iff.1 hzero).1
    | entry => exact Nat.le_of_sub_eq_zero (Nat.add_eq_zero_iff.1 hzero).2
  refine settled_of_reclaimed_eq_retired hearlier fun kind => ?_
  obtain ⟨hreclaimed, hretired, -⟩ := hb kind
  exact UInt64.le_antisymm (reclaimed_le_retired hearlier kind)
    (UInt64.le_trans hretired (UInt64.le_trans (hback kind) hreclaimed))

/-- Whatever the order of the steps, everyone who takes stock gets an answer that can be relied on;
and to wait for the pending does not fail either, it ends with one of the answers. -/
theorem run_reliable (moves : List Move) (h : StaysSmall moves) :
    (∀ t r, (initial.run moves).tasks t = .answered r → Reliable moves t r) ∧
    ∀ answers, (∀ n ≤ Reclaimer.roundLimit,
        ∃ t, (initial.run moves).tasks t = .answered (answers n)) →
      ∃ n ≤ Reclaimer.roundLimit, ∃ backlog, (answers n).backlog = .ok backlog ∧
        Reclaimer.quiesce answers = .ok (answers n, backlog) := by
  refine ⟨fun t r ht => reliable_of_answered h ht, fun answers hanswers => ?_⟩
  have hreliable : ∀ n ≤ 0 + Reclaimer.roundLimit, ∃ t, Reliable moves t (answers n) := by
    intro n hn
    obtain ⟨t, ht⟩ := hanswers n (by omega)
    exact ⟨t, reliable_of_answered h ht⟩
  have hawait := Reclaimer.await_eq Reclaimer.roundLimit 0
    (fun n hn => (hreliable n hn).elim fun _ hr => ⟨_, hr.isSettled⟩)
    (fun n hn => (hreliable n hn).elim fun _ hr => ⟨_, hr.backlog⟩)
  rwa [Nat.zero_add] at hawait

/-- While thread 2 takes stock, a destructor counts its entry and the next retirement begins. All
is settled in between, but neither when the thread begins nor when it ends. Thread 4 takes stock
after it. -/
def fleeting : List Move :=
  [.retire 0 true, .advance 0, .advance 0, .advance 0, .destroy 1 0, .advance 1,
    .takeStock 2, .advance 2, .advance 1, .advance 2, .advance 2,
    .retire 3 false, .advance 3, .advance 2,
    .takeStock 4, .advance 4, .advance 4, .advance 4, .advance 4]

/-- Who waits while this goes on finds everything settled and ends with one index to report. -/
theorem fleeting_reliable :
    StaysSmall fleeting ∧
    (initial.run fleeting).tasks 2 = .answered ⟨1, 1, 1, 1⟩ ∧
    (initial.run fleeting).tasks 4 = .answered ⟨2, 1, 1, 1⟩ ∧
    Reliable fleeting 2 ⟨1, 1, 1, 1⟩ ∧
    (∃ earlier, DuringStock fleeting 2 earlier ∧ (initial.run earlier).Settled) ∧
    ∃ n ≤ Reclaimer.roundLimit, ∃ backlog,
      Reclaimer.quiesce (fun n => if n = 0 then ⟨1, 1, 1, 1⟩ else ⟨2, 1, 1, 1⟩) =
        .ok (if n = 0 then ⟨1, 1, 1, 1⟩ else ⟨2, 1, 1, 1⟩, backlog) := by
  have hsmall : StaysSmall fleeting := by decide +kernel
  have h₂ : (initial.run fleeting).tasks 2 = .answered ⟨1, 1, 1, 1⟩ := by decide +kernel
  have h₄ : (initial.run fleeting).tasks 4 = .answered ⟨2, 1, 1, 1⟩ := by decide +kernel
  obtain ⟨hanswer, hwait⟩ := run_reliable fleeting hsmall
  have hr := hanswer 2 _ h₂
  refine ⟨hsmall, h₂, h₄, hr, hr.settled rfl, ?_⟩
  obtain ⟨n, hn, backlog, -, hq⟩ := hwait
    (fun n => if n = 0 then ⟨1, 1, 1, 1⟩ else ⟨2, 1, 1, 1⟩) fun n _ => by
      by_cases hzero : n = 0
      · exact ⟨2, by rw [if_pos hzero]; exact h₂⟩
      · exact ⟨4, by rw [if_neg hzero]; exact h₄⟩
  exact ⟨n, hn, backlog, hq⟩

end Counting

end SnapshotStore
