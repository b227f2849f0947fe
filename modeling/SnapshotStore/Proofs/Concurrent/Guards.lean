import Mathlib.Data.List.Basic
import SnapshotStore.Concurrent.Publication

namespace SnapshotStore.Publication

namespace Phase

def guard? : Phase → Option Pin
  | .loading _ p | .computing _ p _ | .built p _ _ _ | .swapped p _ _ | .unguarding p _
  | .reading p | .holding p _ => some p
  | .idle | .locking _ | .guarding _ | .unlocking _ | .pinning => none

/-- The index that a thread has loaded and looks at under its guard. -/
def view? : Phase → Option Object
  | .computing _ _ base | .built _ base _ _ => some base
  | .holding _ o => some o
  | _ => none

theorem exists_guard_of_view {phase : Phase} {o : Object} (h : phase.view? = some o) :
    ∃ p, phase.guard? = some p := by
  cases phase <;> first | exact ⟨_, rfl⟩ | cases h

end Phase

/-- Guards belong to one thread each, and what a thread looks at is kept for its guard. -/
structure Guarded (threads : Nat → Thread) (pins : List Pin) (freshPin : Pin)
    (pending : List (Object × List Pin)) (destroyed : List Object) : Prop where
  pinned : ∀ t p, (threads t).phase.guard? = some p → p ∈ pins
  lt_fresh : ∀ p ∈ pins, p < freshPin
  unique : ∀ t t' p, (threads t).phase.guard? = some p → (threads t').phase.guard? = some p → t = t'
  alive : ∀ t o, (threads t).phase.view? = some o → o ∉ destroyed
  awaited : ∀ t o p, (threads t).phase.view? = some o → (threads t).phase.guard? = some p →
    ∀ guards, (o, guards) ∈ pending → p ∈ guards

namespace Guarded

variable {threads : Nat → Thread} {pins : List Pin} {freshPin : Pin}
  {pending : List (Object × List Pin)} {destroyed : List Object} {t : Nat} {thread : Thread}

theorem of_update {α : Type} (f : Phase → Option α) {a : α} {t' : Nat}
    (h : f (Function.update threads t thread t').phase = some a) :
    t' = t ∧ f thread.phase = some a ∨ t' ≠ t ∧ f (threads t').phase = some a := by
  by_cases he : t' = t
  · subst he
    rw [Function.update_self] at h
    exact .inl ⟨rfl, h⟩
  · rw [Function.update_of_ne he] at h
    exact .inr ⟨he, h⟩

theorem set (h : Guarded threads pins freshPin pending destroyed)
    (hguard : ∀ p, thread.phase.guard? = some p → (threads t).phase.guard? = some p)
    (hview : ∀ o, thread.phase.view? = some o → (threads t).phase.view? = some o ∨
      o ∉ destroyed ∧ ∀ guards, (o, guards) ∉ pending) :
    Guarded (Function.update threads t thread) pins freshPin pending destroyed := by
  have hold : ∀ t' p, (Function.update threads t thread t').phase.guard? = some p →
      (threads t').phase.guard? = some p := by
    intro t' p hp
    obtain ⟨rfl, hnew⟩ | ⟨-, hold⟩ := of_update Phase.guard? hp
    · exact hguard p hnew
    · exact hold
  have hsight : ∀ t' o, (Function.update threads t thread t').phase.view? = some o →
      (threads t').phase.view? = some o ∨ o ∉ destroyed ∧ ∀ guards, (o, guards) ∉ pending := by
    intro t' o ho
    obtain ⟨rfl, hnew⟩ | ⟨-, hold⟩ := of_update Phase.view? ho
    · exact hview o hnew
    · exact .inl hold
  refine ⟨fun t' p hp => h.pinned t' p (hold t' p hp), h.lt_fresh,
    fun t₁ t₂ p h₁ h₂ => h.unique t₁ t₂ p (hold t₁ p h₁) (hold t₂ p h₂), fun t' o ho => ?_,
    fun t' o p ho hp guards hd => ?_⟩
  · obtain ho | ⟨ho, -⟩ := hsight t' o ho
    · exact h.alive t' o ho
    · exact ho
  · obtain ho | ⟨-, ho⟩ := hsight t' o ho
    · exact h.awaited t' o p ho (hold t' p hp) guards hd
    · exact absurd hd (ho guards)

theorem pin (h : Guarded threads pins freshPin pending destroyed)
    (hguard : thread.phase.guard? = some freshPin) (hview : thread.phase.view? = none) :
    Guarded (Function.update threads t thread) (freshPin :: pins) (freshPin + 1) pending
      destroyed := by
  have hold : ∀ t' p, (threads t').phase.guard? = some p → p < freshPin := fun t' p hp =>
    h.lt_fresh p (h.pinned t' p hp)
  have hsight : ∀ t' o, (Function.update threads t thread t').phase.view? = some o →
      t' ≠ t ∧ (threads t').phase.view? = some o := by
    intro t' o ho
    obtain ⟨-, ho⟩ | ho := of_update Phase.view? ho
    · rw [hview] at ho
      cases ho
    · exact ho
  refine ⟨fun t' p hp => ?_, fun p hp => ?_, fun t₁ t₂ p h₁ h₂ => ?_,
    fun t' o ho => h.alive t' o (hsight t' o ho).2, fun t' o p ho hp guards hd => ?_⟩
  · obtain ⟨-, hp⟩ | ⟨-, hp⟩ := of_update Phase.guard? hp
    · cases hguard.symm.trans hp
      exact List.mem_cons_self
    · exact List.mem_cons_of_mem _ (h.pinned t' p hp)
  · obtain rfl | hp := List.mem_cons.1 hp
    · exact Nat.lt_succ_self _
    · exact Nat.lt_succ_of_lt (h.lt_fresh p hp)
  · obtain ⟨he₁, h₁⟩ | ⟨-, h₁⟩ := of_update Phase.guard? h₁
    · obtain ⟨he₂, -⟩ | ⟨-, h₂⟩ := of_update Phase.guard? h₂
      · exact he₁.trans he₂.symm
      · cases hguard.symm.trans h₁
        exact absurd (hold t₂ _ h₂) (Nat.lt_irrefl _)
    · obtain ⟨-, h₂⟩ | ⟨-, h₂⟩ := of_update Phase.guard? h₂
      · cases hguard.symm.trans h₂
        exact absurd (hold t₁ _ h₁) (Nat.lt_irrefl _)
      · exact h.unique t₁ t₂ p h₁ h₂
  · obtain ⟨hne, ho⟩ := hsight t' o ho
    obtain ⟨he, -⟩ | ⟨-, hp⟩ := of_update Phase.guard? hp
    · exact absurd he hne
    · exact h.awaited t' o p ho hp guards hd

theorem unpin (h : Guarded threads pins freshPin pending destroyed) {p : Pin}
    (hp : (threads t).phase.guard? = some p) (hguard : thread.phase.guard? = none)
    (hview : thread.phase.view? = none) :
    Guarded (Function.update threads t thread) (pins.filter (· ≠ p)) freshPin pending
      destroyed := by
  have hset : Guarded (Function.update threads t thread) pins freshPin pending destroyed :=
    h.set (by simp [hguard]) (by simp [hview])
  refine ⟨fun t' q hq => ?_, fun q hq => h.lt_fresh q (List.mem_of_mem_filter hq), hset.unique,
    hset.alive, hset.awaited⟩
  have hmem := hset.pinned t' q hq
  -- another thread has another guard
  obtain ⟨-, hq⟩ | ⟨hne, hq⟩ := of_update Phase.guard? hq
  · rw [hguard] at hq
    cases hq
  · exact List.mem_filter.2 ⟨hmem, decide_eq_true fun he => hne (h.unique t' t p (he ▸ hq) hp)⟩

theorem retire (h : Guarded threads pins freshPin pending destroyed) (old : Object) :
    Guarded threads pins freshPin (pending ++ [(old, pins)]) destroyed := by
  refine ⟨h.pinned, h.lt_fresh, h.unique, h.alive, fun t' o p ho hp guards hd => ?_⟩
  obtain hd | hd := List.mem_append.1 hd
  · exact h.awaited t' o p ho hp guards hd
  · cases List.mem_singleton.1 hd
    exact h.pinned t' p hp

theorem collect (h : Guarded threads pins freshPin pending destroyed) {old : Object}
    {guards : List Pin} (hd : (old, guards) ∈ pending) (hgone : ∀ p ∈ guards, p ∉ pins) :
    Guarded threads pins freshPin (pending.filter fun d => d.1 ≠ old) (old :: destroyed) := by
  refine ⟨h.pinned, h.lt_fresh, h.unique, fun t' o ho => ?_,
    fun t' o p ho hp guards hd => h.awaited t' o p ho hp guards (List.mem_of_mem_filter hd)⟩
  refine List.not_mem_cons_of_ne_of_not_mem ?_ (h.alive t' o ho)
  rintro rfl
  obtain ⟨p, hp⟩ := Phase.exists_guard_of_view ho
  exact hgone p (h.awaited t' o p ho hp guards hd) (h.pinned t' p hp)

end Guarded

end SnapshotStore.Publication
