import Mathlib.Algebra.Ring.Nat
import SnapshotStore.Proofs.Store.Write

namespace SnapshotStore

theorem sum_map_set {α : Type} (f : α → Nat) {l : List α} {n : Nat} {a : α} (h : l[n]? = some a)
    (b : α) : ((l.set n b).map f).sum + f a = (l.map f).sum + f b := by
  induction l generalizing n with
  | nil => simp at h
  | cons x l ih =>
    cases n with
    | zero =>
      obtain rfl : x = a := by simpa using h
      simp only [List.set_cons_zero, List.map_cons, List.sum_cons]
      omega
    | succ n =>
      have hrest := ih (n := n) (by simpa using h)
      simp only [List.set_cons_succ, List.map_cons, List.sum_cons]
      omega

namespace Store

def total (s : Store) : Nat := (s.groups.map Group.size).sum

theorem total_publish {s : Store} {id : GroupId} {g : Group} (hg : s.group id = .ok g)
    (next : Index) (gaveWay : Bool) :
    (s.publish id next gaveWay).total + g.index.size = s.total + next.size := by
  obtain ⟨-, hget⟩ := group_eq_ok.1 hg
  have hset : (s.publish id next gaveWay).groups =
      s.groups.set id.slot { g with index := next } := by
    apply List.ext_getElem?
    intro n
    rw [getElem?_publish, List.getElem?_set]
    by_cases hn : id.slot = n
    · subst hn
      rw [if_pos rfl, if_pos rfl, hget, if_pos (List.getElem?_eq_some_iff.1 hget).1]
      rfl
    · rw [if_neg hn, if_neg hn]
  rw [total, total, hset]
  exact sum_map_set Group.size hget { g with index := next }

theorem total_put {s : Store} {id : GroupId} {g : Group} (hg : s.group id = .ok g)
    (h : g.index.Ascending) (e : Entry) (gaveWay : Bool) :
    (s.publish id (g.index.upsert e).1 gaveWay).total + ((g.index.upsert e).2.elim 0 fun _ => 1) =
      s.total + 1 := by
  have hsize := Index.size_upsert h e
  have hpublish := total_publish hg (g.index.upsert e).1 gaveWay
  omega

theorem total_remove {s : Store} {id : GroupId} {g : Group} (hg : s.group id = .ok g)
    (h : g.index.Ascending) {key : Key} {next : Index} {e : Entry}
    (hr : g.index.remove key = some (next, e)) (gaveWay : Bool) :
    (s.publish id next gaveWay).total + 1 = s.total := by
  have hsize := Index.size_remove h hr
  have hpublish := total_publish hg next gaveWay
  omega

theorem total_init {config : Config} {s : Store} (h : Store.init config = .ok s) :
    s.total = 0 := by
  obtain ⟨-, rfl⟩ := init_eq_ok.1 h
  simp [total, Group.size, Index.size, Index.empty, Function.comp_def]

end Store

end SnapshotStore
