import Mathlib.Logic.ExistsUnique
import SnapshotStore.Concurrent.Publication

namespace SnapshotStore.Publication

def Phase.unlinked? : Phase → Option Object
  | .swapped _ old _ => some old
  | _ => none

/-- The stations in the life of a published index. -/
inductive Station where
  | current (group : Nat)
  | unlinked (thread : Nat)
  | pending
  | destroyed
  deriving DecidableEq, Repr

/-- The objects made so far are at one station each, the others at none. -/
structure Tracked (stands : Object → Station → Prop) (fresh : Object)
    (place : Object → Option Station) : Prop where
  iff : ∀ o s, stands o s ↔ place o = some s
  known : ∀ o, (place o).isSome ↔ o < fresh

namespace Tracked

variable {stands stands' : Object → Station → Prop} {fresh o : Object}
  {place : Object → Option Station} {s s' : Station}

theorem congr (h : Tracked stands fresh place) (hs : ∀ o s, stands' o s ↔ stands o s) :
    Tracked stands' fresh place :=
  ⟨fun o s => (hs o s).trans (h.iff o s), h.known⟩

theorem existsUnique (h : Tracked stands fresh place) (ho : o < fresh) : ∃! s, stands o s := by
  obtain ⟨s, hs⟩ := Option.isSome_iff_exists.1 ((h.known o).2 ho)
  refine ⟨s, (h.iff o s).2 hs, fun s' hs' => ?_⟩
  exact Option.some.inj (((h.iff o s').1 hs').symm.trans hs)

theorem lt_fresh (h : Tracked stands fresh place) (hs : stands o s) : o < fresh :=
  (h.known o).1 (Option.isSome_iff_exists.2 ⟨s, (h.iff o s).1 hs⟩)

theorem eq (h : Tracked stands fresh place) (hs : stands o s) (hs' : stands o s') : s = s' :=
  Option.some.inj (((h.iff o s).1 hs).symm.trans ((h.iff o s').1 hs'))

theorem move (h : Tracked stands fresh place) (ho : o < fresh)
    (hs : ∀ o' s, stands' o' s ↔ if o' = o then s = s' else stands o' s) :
    Tracked stands' fresh (Function.update place o (some s')) := by
  refine ⟨fun o' s => ?_, fun o' => ?_⟩
  · rw [hs]
    by_cases he : o' = o
    · subst he
      simp [eq_comm]
    · rw [if_neg he, Function.update_of_ne he, h.iff]
  · by_cases he : o' = o
    · subst he
      simpa using ho
    · rw [Function.update_of_ne he, h.known]

theorem make (h : Tracked stands fresh place)
    (hs : ∀ o s, stands' o s ↔ if o = fresh then s = s' else stands o s) :
    Tracked stands' (fresh + 1) (Function.update place fresh (some s')) := by
  refine ⟨fun o s => ?_, fun o => ?_⟩
  · rw [hs]
    by_cases he : o = fresh
    · subst he
      simp [eq_comm]
    · rw [if_neg he, Function.update_of_ne he, h.iff]
  · by_cases he : o = fresh
    · subst he
      simp
    · rw [Function.update_of_ne he, h.known, Nat.lt_succ_iff_lt_or_eq, or_iff_left he]

end Tracked

namespace Machine

variable {m : Machine} {t : Nat} {place : Object → Option Station}

/-- An object is the current index of a group, or a writer has taken it out and still has to
retire it, or it is retired and waits for guards, or it is destroyed. -/
def Stands (m : Machine) (o : Object) : Station → Prop
  | .current g => g < m.groups ∧ m.current g = o
  | .unlinked t => (m.threads t).phase.unlinked? = some o
  | .pending => o ∈ m.pending.map Prod.fst
  | .destroyed => o ∈ m.destroyed

theorem stands_set {thread : Thread} (hu : thread.phase.unlinked? = (m.threads t).phase.unlinked?)
    (o : Object) (s : Station) :
    Stands { m with threads := Function.update m.threads t thread } o s ↔ m.Stands o s := by
  cases s with
  | unlinked t' =>
    by_cases he : t' = t
    · subst he
      simp [Stands, hu]
    · simp [Stands, he]
  | _ => exact Iff.rfl

theorem stands_swap (h : Tracked m.Stands m.fresh place) {phase : Phase} {g : Nat} {next : Index}
    (hg : g < m.groups) (hbefore : (m.threads t).phase.unlinked? = none)
    (hafter : phase.unlinked? = some (m.current g)) (o : Object) (s : Station) :
    ((m.become t phase).swap g next).Stands o s ↔
      if o = m.fresh then s = .current g
      else if o = m.current g then s = .unlinked t else m.Stands o s := by
  have hcurrent : m.Stands (m.current g) (.current g) := ⟨hg, rfl⟩
  have hne : m.current g ≠ m.fresh := Nat.ne_of_lt (h.lt_fresh hcurrent)
  have hnew : ∀ s, ¬ m.Stands m.fresh s := fun s hs => Nat.lt_irrefl _ (h.lt_fresh hs)
  have hone : ∀ s, m.Stands (m.current g) s → s = .current g := fun s hs => h.eq hs hcurrent
  have hs := hnew s
  have hs' := hone s
  cases s with
  | current g' =>
    by_cases he : g' = g
    · subst he
      simp only [Stands, become, swap, Function.update_self] at *
      grind
    · simp only [Stands, become, swap, Function.update_of_ne he] at *
      grind
  | unlinked t' =>
    by_cases he : t' = t
    · subst he
      simp only [Stands, become, swap, Function.update_self] at *
      grind
    · simp only [Stands, become, swap, Function.update_of_ne he] at *
      grind
  | pending =>
    simp only [Stands, become, swap] at *
    grind
  | destroyed =>
    simp only [Stands, become, swap] at *
    grind

theorem stands_retire (h : Tracked m.Stands m.fresh place) {phase : Phase} {old : Object}
    (hbefore : (m.threads t).phase.unlinked? = some old) (hafter : phase.unlinked? = none)
    (o : Object) (s : Station) :
    ((m.become t phase).retire old).Stands o s ↔ if o = old then s = .pending else m.Stands o s := by
  have hone : ∀ s, m.Stands old s → s = .unlinked t := fun s hs => h.eq hs hbefore
  have hs := hone s
  cases s with
  | unlinked t' =>
    by_cases he : t' = t
    · subst he
      simp only [Stands, become, retire, Function.update_self] at *
      grind
    · simp only [Stands, become, retire, Function.update_of_ne he] at *
      grind
  | _ =>
    simp only [Stands, become, retire, List.map_append, List.map_cons, List.map_nil] at *
    grind

theorem stands_collect (h : Tracked m.Stands m.fresh place) {object : Object}
    (hp : m.Stands object .pending) (o : Object) (s : Station) :
    Stands { m with
      pending := m.pending.filter fun d => d.1 ≠ object
      destroyed := object :: m.destroyed } o s ↔
        if o = object then s = .destroyed else m.Stands o s := by
  have hone : ∀ s, m.Stands object s → s = .pending := fun s hs => h.eq hs hp
  have hs := hone s
  cases s with
  | pending =>
    simp only [Stands, List.mem_map, List.mem_filter] at *
    grind
  | _ =>
    simp only [Stands, List.mem_cons] at *
    grind

end Machine

end SnapshotStore.Publication
