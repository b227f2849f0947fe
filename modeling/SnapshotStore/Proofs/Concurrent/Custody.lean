import Mathlib.Data.List.Nodup
import SnapshotStore.Concurrent.Scarcity
import SnapshotStore.Proofs.Concurrent.Guards
import SnapshotStore.Proofs.Concurrent.Linearization
import SnapshotStore.Proofs.Concurrent.Stations

namespace SnapshotStore.Publication

namespace Machine

variable {m : Machine} {t : Nat} {phase : Phase}

/-- What is true of the objects and guards of a machine after any run. -/
structure Custody (m : Machine) : Prop where
  within : ∀ t, (m.threads t).phase ≠ .idle → (m.threads t).group < m.groups
  shelved : ∀ g < m.groups, Shelved m.fresh (m.current g) (m.chronicle.published g)
  guarded : Guarded m.threads m.pins m.freshPin m.pending m.destroyed
  tracked : ∃ place, Tracked m.Stands m.fresh place
  viewed : ∀ t o, (m.threads t).phase.view? = some o →
    o ∈ m.chronicle.published (m.threads t).group
  once : (m.pending.map Prod.fst ++ m.destroyed).Nodup

theorem initial_custody (groups : Nat) : (initial groups).Custody where
  within _ h := absurd rfl h
  shelved g hg := ⟨fun _ ho => List.mem_singleton.1 ho ▸ hg, List.pairwise_singleton _ _, rfl⟩
  guarded := ⟨nofun, nofun, nofun, nofun, nofun⟩
  tracked := by
    refine ⟨fun o => if o < groups then some (.current o) else none, fun o s => ?_, fun o => ?_⟩
    · cases s <;> simp [Stands, initial, Phase.unlinked?]
      grind
    · by_cases ho : o < groups <;> simp [initial, ho]
  viewed := nofun
  once := List.nodup_nil

namespace Custody

theorem current_kept (h : m.Custody) {g : Nat} (hg : g < m.groups) :
    m.current g ∉ m.destroyed ∧ ∀ guards, (m.current g, guards) ∉ m.pending := by
  obtain ⟨place, ht⟩ := h.tracked
  have hc : m.Stands (m.current g) (.current g) := ⟨hg, rfl⟩
  refine ⟨fun hd => ?_, fun guards hp => ?_⟩
  · have hs : m.Stands (m.current g) .destroyed := hd
    cases ht.eq hc hs
  · have hs : m.Stands (m.current g) .pending := List.mem_map_of_mem hp
    cases ht.eq hc hs

theorem within_set (h : m.Custody) {thread : Thread}
    (hthread : thread.phase ≠ .idle → thread.group < m.groups) (t' : Nat)
    (ht' : (Function.update m.threads t thread t').phase ≠ .idle) :
    (Function.update m.threads t thread t').group < m.groups := by
  by_cases he : t' = t
  · subst he
    rw [Function.update_self] at ht' ⊢
    exact hthread ht'
  · rw [Function.update_of_ne he] at ht' ⊢
    exact h.within t' ht'

theorem viewed_set (h : m.Custody) {thread : Thread} {published : Nat → List Object}
    (hgrows : ∀ g, m.chronicle.published g ⊆ published g)
    (hthread : ∀ o, thread.phase.view? = some o → o ∈ published thread.group) (t' : Nat)
    (o : Object) (ho : (Function.update m.threads t thread t').phase.view? = some o) :
    o ∈ published (Function.update m.threads t thread t').group := by
  by_cases he : t' = t
  · subst he
    rw [Function.update_self] at ho ⊢
    exact hthread o ho
  · rw [Function.update_of_ne he] at ho ⊢
    exact hgrows _ (h.viewed t' o ho)

theorem start (h : m.Custody) {thread : Thread} (hwithin : thread.group < m.groups)
    (hidle : (m.threads t).phase = .idle) (hguard : thread.phase.guard? = none)
    (hview : thread.phase.view? = none) (hunlinked : thread.phase.unlinked? = none) :
    Custody { m with threads := Function.update m.threads t thread } where
  within := h.within_set fun _ => hwithin
  shelved := h.shelved
  guarded := h.guarded.set (by simp [hguard]) (by simp [hview])
  tracked := by
    obtain ⟨place, ht⟩ := h.tracked
    exact ⟨place, ht.congr (stands_set (by rw [hunlinked, hidle]; rfl))⟩
  viewed := h.viewed_set (fun _ => List.Subset.refl _) (by simp [hview])
  once := h.once

theorem become (h : m.Custody) (hidle : (m.threads t).phase ≠ .idle)
    (hguard : ∀ p, phase.guard? = some p → (m.threads t).phase.guard? = some p)
    (hview : ∀ o, phase.view? = some o → (m.threads t).phase.view? = some o ∨
      m.current (m.threads t).group = o)
    (hunlinked : phase.unlinked? = (m.threads t).phase.unlinked?) :
    (m.become t phase).Custody where
  within := h.within_set fun _ => h.within t hidle
  shelved := h.shelved
  guarded := h.guarded.set hguard fun o ho => by
    obtain ho | rfl := hview o ho
    · exact .inl ho
    · exact .inr (h.current_kept (h.within t hidle))
  tracked := by
    obtain ⟨place, ht⟩ := h.tracked
    exact ⟨place, ht.congr (stands_set hunlinked)⟩
  viewed := h.viewed_set (fun _ => List.Subset.refl _) fun o ho => by
    obtain ho | rfl := hview o ho
    · exact h.viewed t o ho
    · exact (h.shelved _ (h.within t hidle)).current_mem
  once := h.once

theorem pin (h : m.Custody) (hidle : (m.threads t).phase ≠ .idle)
    (hguard : phase.guard? = some m.freshPin) (hview : phase.view? = none)
    (hunlinked : phase.unlinked? = (m.threads t).phase.unlinked?) :
    (m.become t phase).pin.Custody where
  within := h.within_set fun _ => h.within t hidle
  shelved := h.shelved
  guarded := h.guarded.pin hguard hview
  tracked := by
    obtain ⟨place, ht⟩ := h.tracked
    exact ⟨place, ht.congr (stands_set (m := m) hunlinked)⟩
  viewed := h.viewed_set (fun _ => List.Subset.refl _) (by simp [hview])
  once := h.once

theorem unpin (h : m.Custody) {p : Pin} (hp : (m.threads t).phase.guard? = some p)
    (hguard : phase.guard? = none) (hview : phase.view? = none)
    (hunlinked : phase.unlinked? = (m.threads t).phase.unlinked?) :
    ((m.become t phase).unpin p).Custody where
  within := h.within_set fun _ => h.within t fun hidle => by simp [hidle, Phase.guard?] at hp
  shelved := h.shelved
  guarded := h.guarded.unpin hp hguard hview
  tracked := by
    obtain ⟨place, ht⟩ := h.tracked
    exact ⟨place, ht.congr (stands_set (m := m) hunlinked)⟩
  viewed := h.viewed_set (fun _ => List.Subset.refl _) (by simp [hview])
  once := h.once

theorem swap (h : m.Custody) {p : Pin} {base : Object} {next : Index} {outcome : Outcome}
    (hp : (m.threads t).phase = .built p base next outcome) :
    ((m.become t (.swapped p (m.current (m.threads t).group) outcome)).swap
      (m.threads t).group next).Custody := by
  have hg := h.within t (by simp [hp])
  refine ⟨h.within_set fun _ => hg, fun g hg' => ?_, ?_, ?_, h.viewed_set (fun g => ?_) ?_, h.once⟩
  · exact shelved_swap (m := m.become t _) _ next (h.shelved g hg')
  · exact h.guarded.set (by simp [hp, Phase.guard?]) (by simp [Phase.view?])
  · obtain ⟨place, ht⟩ := h.tracked
    have hcurrent : m.Stands (m.current (m.threads t).group) (.current (m.threads t).group) :=
      ⟨hg, rfl⟩
    have htaken : Tracked (fun o s => if o = m.current (m.threads t).group then s = .unlinked t
        else m.Stands o s) m.fresh _ := ht.move (ht.lt_fresh hcurrent) fun _ _ => Iff.rfl
    exact ⟨_, htaken.make (stands_swap ht hg (by simp [hp, Phase.unlinked?]) rfl)⟩
  · exact ((grows_swap (m := m) (m.threads t).group next).published g).subset
  · simp [Phase.view?]

theorem retire (h : m.Custody) {p : Pin} {old : Object} {outcome : Outcome}
    (hp : (m.threads t).phase = .swapped p old outcome) :
    ((m.become t (.unguarding p outcome)).retire old).Custody := by
  obtain ⟨place, ht⟩ := h.tracked
  have hold : m.Stands old (.unlinked t) := by simp [Stands, hp, Phase.unlinked?]
  have hset : Guarded (Function.update m.threads t
      { m.threads t with phase := .unguarding p outcome }) m.pins m.freshPin m.pending
      m.destroyed := h.guarded.set (by simp [hp, Phase.guard?]) (by simp [Phase.view?])
  refine ⟨h.within_set fun _ => h.within t (by simp [hp]), h.shelved, hset.retire old,
    ⟨_, ht.move (ht.lt_fresh hold) (stands_retire ht hold rfl)⟩,
    h.viewed_set (fun _ => List.Subset.refl _) (by simp [Phase.view?]), ?_⟩
  have hnot : old ∉ m.pending.map Prod.fst ++ m.destroyed := by
    intro hmem
    obtain hs | hs := List.mem_append.1 hmem
    · have hs : m.Stands old .pending := hs
      cases ht.eq hold hs
    · have hs : m.Stands old .destroyed := hs
      cases ht.eq hold hs
  have hperm : ((m.pending ++ [(old, m.pins)]).map Prod.fst ++ m.destroyed).Perm
      (old :: (m.pending.map Prod.fst ++ m.destroyed)) := by
    rw [List.map_append, List.append_assoc]
    exact List.perm_middle
  exact hperm.nodup_iff.2 (List.nodup_cons.2 ⟨hnot, h.once⟩)

theorem collect (h : m.Custody) {object : Object} {guards : List Pin}
    (hd : (object, guards) ∈ m.pending) (hgone : ∀ p ∈ guards, p ∉ m.pins) :
    Custody { m with
      pending := m.pending.filter fun d => d.1 ≠ object
      destroyed := object :: m.destroyed } := by
  obtain ⟨place, ht⟩ := h.tracked
  have hp : m.Stands object .pending := List.mem_map_of_mem hd
  refine ⟨h.within, h.shelved, h.guarded.collect hd hgone,
    ⟨_, ht.move (ht.lt_fresh hp) (stands_collect ht hp)⟩, h.viewed, ?_⟩
  obtain ⟨hpending, hdestroyed, hdisjoint⟩ := List.nodup_append.1 h.once
  have hsub : ((m.pending.filter fun d => d.1 ≠ object).map Prod.fst).Sublist
      (m.pending.map Prod.fst) := List.filter_sublist.map _
  have hout : object ∉ (m.pending.filter fun d => d.1 ≠ object).map Prod.fst := by
    simp
  have hnot : object ∉ m.destroyed := fun hs => hdisjoint object hp object hs rfl
  refine List.nodup_append.2 ⟨hpending.sublist hsub, List.nodup_cons.2 ⟨hnot, hdestroyed⟩, ?_⟩
  rintro o ho o' ho' rfl
  obtain rfl | ho' := List.mem_cons.1 ho'
  · exact hout ho
  · exact hdisjoint o (hsub.subset ho) o ho' rfl

theorem enter (h : m.Custody) (group : Nat) (op : Write) : (m.enter t group op).Custody :=
  ⟨h.within, h.shelved, h.guarded, h.tracked, h.viewed, h.once⟩

theorem record (h : m.Custody) (group : Nat) (outcome : Outcome) :
    (m.record group outcome).Custody :=
  ⟨h.within, h.shelved, h.guarded, h.tracked, h.viewed, h.once⟩

theorem leave (h : m.Custody) (group : Nat) (outcome : Outcome) :
    (m.leave t group outcome).Custody :=
  ⟨h.within, h.shelved, h.guarded, h.tracked, h.viewed, h.once⟩

theorem release (h : m.Custody) (group : Nat) : (m.release group).Custody :=
  ⟨h.within, h.shelved, h.guarded, h.tracked, h.viewed, h.once⟩

theorem advance (h : m.Custody) (t : Nat) : (m.advance t).Custody := by
  unfold Machine.advance
  cases hp : (m.threads t).phase with
  | idle => exact h
  | locking op =>
    cases hf : m.holder (m.threads t).group with
    | some _ => simpa only [hf] using h
    | none =>
      simp only [hf]
      exact (h.become (by simp [hp]) (by nofun) (by nofun) (by rw [hp]; rfl)).enter _ op
  | guarding op => exact h.pin (by simp [hp]) rfl rfl (by rw [hp]; rfl)
  | loading op p =>
    exact h.become (by simp [hp]) (by rw [hp]; exact fun _ => id)
      (fun o ho => .inr (Option.some.inj ho)) (by rw [hp]; rfl)
  | computing op p base =>
    cases ha : op.apply (m.contents base) with
    | mk next outcome =>
      cases next with
      | none =>
        simp only [ha]
        exact (h.become (by simp [hp]) (by rw [hp]; exact fun _ => id) (by nofun)
          (by rw [hp]; rfl)).record _ outcome
      | some next =>
        simp only [ha]
        exact h.become (by simp [hp]) (by rw [hp]; exact fun _ => id)
          (by rw [hp]; exact fun _ => .inl) (by rw [hp]; rfl)
  | built p base next outcome => exact (h.swap hp).record _ outcome
  | swapped p old outcome => exact h.retire hp
  | unguarding p outcome => exact h.unpin (by rw [hp]; rfl) rfl rfl (by rw [hp]; rfl)
  | unlocking outcome =>
    exact (h.become (by simp [hp]) (by nofun) (by nofun) (by rw [hp]; rfl)).leave _ outcome
  | pinning => exact h.pin (by simp [hp]) rfl rfl (by rw [hp]; rfl)
  | reading p =>
    exact h.become (by simp [hp]) (by rw [hp]; exact fun _ => id)
      (fun o ho => .inr (Option.some.inj ho)) (by rw [hp]; rfl)
  | holding p o => exact h.unpin (by rw [hp]; rfl) rfl rfl (by rw [hp]; rfl)

theorem step (h : m.Custody) (move : Move) : (m.step move).Custody := by
  cases move with
  | write t g op =>
    simp only [Machine.step]
    split
    · next hc => exact h.start hc.2 hc.1 rfl rfl rfl
    · exact h
  | read t g =>
    simp only [Machine.step]
    split
    · next hc => exact h.start hc.2 hc.1 rfl rfl rfl
    · exact h
  | advance t => exact h.advance t
  | collect object =>
    simp only [Machine.step]
    split
    · next o guards hfind =>
      split
      · next hgone =>
        obtain rfl : o = object := by simpa using List.find?_some hfind
        exact h.collect (List.mem_of_find?_eq_some hfind) (by simpa using hgone)
      · exact h
    · exact h

theorem retreat {s : Scarce} (h : s.machine.Custody) (t : Nat) : (s.retreat t).machine.Custody := by
  unfold Scarce.retreat
  split
  · next op p base hp => exact h.unpin (by rw [hp]; rfl) rfl rfl (by rw [hp]; rfl)
  · next op hp => exact (h.become (by simp [hp]) (by nofun) (by nofun) (by rw [hp]; rfl)).release _
  · exact h

theorem turn {s : Scarce} (h : s.machine.Custody) (turn : Turn) :
    (s.step turn).machine.Custody := by
  obtain he | ⟨move, -, he⟩ | ⟨t, -, he⟩ := s.machine_step turn
  · rwa [he]
  · rw [he]
    exact h.step move
  · rw [he]
    exact h.retreat t

end Custody

end Machine

end SnapshotStore.Publication
