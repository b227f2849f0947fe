import Mathlib.Algebra.BigOperators.Group.Finset.Basic
import Mathlib.Algebra.Ring.Nat
import Mathlib.Data.List.Induction
import SnapshotStore.Concurrent.Counting

namespace SnapshotStore.Counting

/-- What is counted: indexes that were given up, and entries that gave way with some of them. -/
inductive Kind where
  | index
  | entry

namespace Kind

@[simp] def retired : Kind → Reclamation → UInt64
  | .index => Reclamation.retiredIndexes
  | .entry => Reclamation.retiredEntries

@[simp] def reclaimed : Kind → Reclamation → UInt64
  | .index => Reclamation.reclaimedIndexes
  | .entry => Reclamation.reclaimedEntries

@[simp] def weight : Kind → Bool → Nat
  | .index, _ => 1
  | .entry, dropped => dropped.toNat

end Kind

/-- How much a thread has counted as retired and not deferred yet, or has taken out of what is
deferred and not counted as reclaimed yet. -/
@[simp] def Task.held : Kind → Task → Nat
  | kind, .retireEntry => kind.weight false
  | kind, .defer entry | kind, .destroyIndex entry => kind.weight entry
  | .entry, .destroyEntry => 1
  | _, _ => 0

def Move.thread : Move → Nat
  | .retire thread _ | .takeStock thread | .destroy thread _ | .advance thread => thread

variable {kind : Kind} {bound : Nat} {s s' : State} {t : Nat}

def State.pending (kind : Kind) (bound : Nat) (s : State) : Nat :=
  (s.deferred.map kind.weight).sum + ∑ t ∈ Finset.range bound, (s.tasks t).held kind

theorem sum_held_update (kind : Kind) (ht : t < bound) (tasks : Nat → Task) (task : Task) :
    ∑ u ∈ Finset.range bound, (Function.update tasks t task u).held kind + (tasks t).held kind =
      ∑ u ∈ Finset.range bound, (tasks u).held kind + task.held kind := by
  have hmem : t ∈ Finset.range bound := Finset.mem_range.2 ht
  have hnew : ∑ u ∈ (Finset.range bound).erase t, (Function.update tasks t task u).held kind =
      ∑ u ∈ (Finset.range bound).erase t, (tasks u).held kind :=
    Finset.sum_congr rfl fun u hu => by rw [Function.update_of_ne (Finset.ne_of_mem_erase hu)]
  rw [← Finset.add_sum_erase _ _ hmem, ← Finset.add_sum_erase _ (fun u => (tasks u).held kind) hmem,
    hnew, Function.update_self]
  omega

/-- What a step adds to the account of a kind: it retires one, it reclaims one, or it does neither
and at most hands on what is pending. -/
def Posts (kind : Kind) (bound : Nat) (s s' : State) : Prop :=
  ∃ retired reclaimed, retired + reclaimed ≤ 1 ∧
    kind.retired s'.counts = kind.retired s.counts + .ofNat retired ∧
    kind.reclaimed s'.counts = kind.reclaimed s.counts + .ofNat reclaimed ∧
    s'.pending kind bound + reclaimed = s.pending kind bound + retired

theorem posts_self : Posts kind bound s s :=
  ⟨0, 0, Nat.zero_le 1, (UInt64.add_zero _).symm, (UInt64.add_zero _).symm, rfl⟩

/-- One thread goes on. What it counts, and what changes about the deferred, has to agree with what
it holds before and after. -/
theorem posts_of_update (ht : t < bound) {task : Task} (retired reclaimed : Nat)
    (hle : retired + reclaimed ≤ 1) (htasks : s'.tasks = Function.update s.tasks t task)
    (hretired : kind.retired s'.counts = kind.retired s.counts + .ofNat retired)
    (hreclaimed : kind.reclaimed s'.counts = kind.reclaimed s.counts + .ofNat reclaimed)
    (hheld : (s'.deferred.map kind.weight).sum + task.held kind + reclaimed =
      (s.deferred.map kind.weight).sum + (s.tasks t).held kind + retired) :
    Posts kind bound s s' := by
  refine ⟨retired, reclaimed, hle, hretired, hreclaimed, ?_⟩
  have hsum := sum_held_update kind ht s.tasks task
  rw [State.pending, State.pending, htasks]
  omega

theorem posts_become (ht : t < bound) {task : Task} {deferred : List Bool}
    (hheld : (deferred.map kind.weight).sum + task.held kind =
      (s.deferred.map kind.weight).sum + (s.tasks t).held kind) :
    Posts kind bound s { s.become t task with deferred } :=
  posts_of_update ht 0 0 (Nat.zero_le 1) rfl (UInt64.add_zero _).symm (UInt64.add_zero _).symm hheld

theorem posts_advance (ht : t < bound) : Posts kind bound s (s.advance t) := by
  unfold State.advance
  cases hp : s.tasks t with
  | idle | answered r | ended => exact posts_self
  | retireIndex entry =>
    refine posts_of_update ht (kind.weight false) 0 ?_ rfl ?_ ?_ ?_ <;> cases kind <;>
      cases entry <;> simp [State.count, State.become, hp]
  | retireEntry =>
    -- its index is counted already, so only the rest of its weight is
    refine posts_of_update ht (kind.weight true - kind.weight false) 0 ?_ rfl ?_ ?_ ?_ <;>
      cases kind <;> simp [State.count, State.become, hp]
  | defer entry => exact posts_become ht (by simp [hp])
  | destroyIndex entry =>
    refine posts_of_update ht 0 (kind.weight false) ?_ rfl ?_ ?_ ?_ <;> cases kind <;>
      cases entry <;> simp [State.count, State.become, hp]
  | destroyEntry =>
    refine posts_of_update ht 0 (kind.weight true - kind.weight false) ?_ rfl ?_ ?_ ?_ <;>
      cases kind <;> simp [State.count, State.become, hp]
  | loadReclaimedIndexes | loadReclaimedEntries ri | loadRetiredIndexes ri re
  | loadRetiredEntries ri re xi => exact posts_become ht (by simp [hp])

theorem posts_step {move : Move} (hmove : move.thread < bound) :
    Posts kind bound s (s.step move) := by
  cases move with
  | retire t entry =>
    have ht : t < bound := hmove
    simp only [State.step]
    split
    · next hp => exact posts_become ht (by simp [hp])
    · exact posts_self
  | takeStock t =>
    have ht : t < bound := hmove
    simp only [State.step]
    split
    · next hp => exact posts_become ht (by simp [hp])
    · exact posts_self
  | destroy t pos =>
    have ht : t < bound := hmove
    simp only [State.step]
    split
    · next hp =>
      split
      · next entry hpos =>
        obtain ⟨hlt, rfl⟩ := List.getElem?_eq_some_iff.1 hpos
        have hperm := ((List.getElem_cons_eraseIdx_perm hlt).map kind.weight).sum_eq
        rw [List.map_cons, List.sum_cons] at hperm
        exact posts_become ht (by simp only [hp, Task.held]; omega)
      · exact posts_self
    · exact posts_self
  | advance t => exact posts_advance hmove

def State.Balanced (kind : Kind) (bound : Nat) (s : State) : Prop :=
  (kind.retired s.counts).toNat = (kind.reclaimed s.counts).toNat + s.pending kind bound

theorem toNat_add_ofNat_of_le {x : UInt64} {n : Nat} (hx : x.toNat < 2 ^ 63) (hn : n ≤ 1) :
    (x + .ofNat n).toNat = x.toNat + n := by
  rw [UInt64.toNat_add, UInt64.toNat_ofNat']
  omega

/-- Counters that are not near their end only go up, and the account stays balanced. -/
theorem Posts.balanced (h : Posts kind bound s s') (hs : s.Balanced kind bound)
    (hsmall : (kind.retired s.counts).toNat < 2 ^ 63) :
    s'.Balanced kind bound ∧ kind.retired s.counts ≤ kind.retired s'.counts ∧
      kind.reclaimed s.counts ≤ kind.reclaimed s'.counts := by
  obtain ⟨retired, reclaimed, hle, hretired, hreclaimed, hpending⟩ := h
  unfold State.Balanced at hs ⊢
  have hlt : (kind.reclaimed s.counts).toNat < 2 ^ 63 := by omega
  have hx := toNat_add_ofNat_of_le (n := retired) hsmall (by omega)
  have hy := toNat_add_ofNat_of_le (n := reclaimed) hlt (by omega)
  rw [hretired, hreclaimed, UInt64.le_iff_toNat_le, UInt64.le_iff_toNat_le, hx, hy]
  omega

/-- At no time in a run does a counter of what is retired reach the upper half of the words. What
is reclaimed is never more. -/
def StaysSmall (moves : List Move) : Prop :=
  ∀ earlier, earlier <+: moves →
    (initial.run earlier).counts.retiredIndexes.toNat < 2 ^ 63 ∧
    (initial.run earlier).counts.retiredEntries.toNat < 2 ^ 63

instance (moves : List Move) : Decidable (StaysSmall moves) :=
  decidable_of_iff (∀ earlier ∈ moves.inits,
    (initial.run earlier).counts.retiredIndexes.toNat < 2 ^ 63 ∧
    (initial.run earlier).counts.retiredEntries.toNat < 2 ^ 63)
    (by simp only [List.mem_inits, StaysSmall])

variable {moves earlier : List Move} {move : Move}

theorem run_concat (moves : List Move) (move : Move) :
    initial.run (moves ++ [move]) = (initial.run moves).step move := by
  rw [State.run, State.run, List.foldl_append]
  rfl

theorem StaysSmall.of_prefix (h : StaysSmall moves) (hp : earlier <+: moves) : StaysSmall earlier :=
  fun _ hp' => h _ (hp'.trans hp)

theorem StaysSmall.lt (h : StaysSmall moves) (kind : Kind) :
    (kind.retired (initial.run moves).counts).toNat < 2 ^ 63 := by
  obtain ⟨hindexes, hentries⟩ := h moves (List.prefix_refl moves)
  cases kind with
  | index => exact hindexes
  | entry => exact hentries

theorem balanced_initial : initial.Balanced kind bound := by
  cases kind <;> simp [State.Balanced, State.pending, initial]

theorem balanced_run (h : StaysSmall moves) (hbound : ∀ move ∈ moves, move.thread < bound) :
    (initial.run moves).Balanced kind bound := by
  induction moves using List.reverseRecOn with
  | nil => exact balanced_initial
  | append_singleton moves move ih =>
    have hbefore : StaysSmall moves := h.of_prefix (List.prefix_append moves [move])
    have hs := ih hbefore fun m hm => hbound m (List.mem_append_left _ hm)
    rw [run_concat]
    have hthread : move.thread < bound := hbound move (List.mem_append_right _ List.mem_cons_self)
    exact ((posts_step hthread).balanced hs (hbefore.lt kind)).1

theorem exists_bound (moves : List Move) (t : Nat) :
    ∃ bound, t < bound ∧ ∀ move ∈ moves, move.thread < bound := by
  induction moves with
  | nil => exact ⟨t + 1, Nat.lt_succ_self t, nofun⟩
  | cons move moves ih =>
    obtain ⟨bound, ht, hbound⟩ := ih
    refine ⟨max bound (move.thread + 1), Nat.lt_of_lt_of_le ht (Nat.le_max_left ..), ?_⟩
    rintro m (_ | ⟨_, hm⟩)
    · exact Nat.le_max_right ..
    · exact Nat.lt_of_lt_of_le (hbound m hm) (Nat.le_max_left ..)

theorem reclaimed_le_retired (h : StaysSmall moves) (kind : Kind) :
    kind.reclaimed (initial.run moves).counts ≤ kind.retired (initial.run moves).counts := by
  obtain ⟨bound, -, hbound⟩ := exists_bound moves 0
  have hs : State.Balanced kind bound (initial.run moves) := balanced_run h hbound
  unfold State.Balanced at hs
  rw [UInt64.le_iff_toNat_le]
  omega

theorem counters_le (h : StaysSmall moves) (hp : earlier <+: moves) (kind : Kind) :
    kind.retired (initial.run earlier).counts ≤ kind.retired (initial.run moves).counts ∧
      kind.reclaimed (initial.run earlier).counts ≤ kind.reclaimed (initial.run moves).counts := by
  induction moves using List.reverseRecOn with
  | nil =>
    obtain rfl := List.prefix_nil.1 hp
    exact ⟨UInt64.le_refl _, UInt64.le_refl _⟩
  | append_singleton moves move ih =>
    obtain rfl | hp := List.prefix_concat_iff.1 hp
    · exact ⟨UInt64.le_refl _, UInt64.le_refl _⟩
    · have hbefore : StaysSmall moves := h.of_prefix (List.prefix_append moves [move])
      obtain ⟨bound, ht, hbound⟩ := exists_bound moves move.thread
      have hs : State.Balanced kind bound (initial.run moves) := balanced_run hbefore hbound
      obtain ⟨-, hretired, hreclaimed⟩ := (posts_step ht).balanced hs (hbefore.lt kind)
      obtain ⟨ihretired, ihreclaimed⟩ := ih hbefore hp
      rw [run_concat]
      exact ⟨UInt64.le_trans ihretired hretired, UInt64.le_trans ihreclaimed hreclaimed⟩

end SnapshotStore.Counting
