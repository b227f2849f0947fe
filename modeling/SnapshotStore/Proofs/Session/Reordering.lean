import SnapshotStore.Proofs.Session.Representation
import SnapshotStore.Proofs.Store.Edit

namespace SnapshotStore

/-- Writes in the order in which they were carried out, each with its answer. -/
abbrev EditLog := List (Edit × Except StoreError Receipt)

def EditLog.at (log : EditLog) (c : Cell) : EditLog := log.filter fun r => r.1.cell = c

namespace Store

def edits (s : Store) : List Edit → EditLog × Store
  | [] => ([], s)
  | w :: ws => ((w, (s.edit w).1) :: ((s.edit w).2.edits ws).1, ((s.edit w).2.edits ws).2)

def Alike (x y : EditLog × Store) : Prop := x.2 = y.2 ∧ ∀ c, x.1.at c = y.1.at c

variable {config : Config} {s : Store} {v w : Edit}

theorem Alike.cons {x y : EditLog × Store} (h : Alike x y) (r : Edit × Except StoreError Receipt) :
    Alike (r :: x.1, x.2) (r :: y.1, y.2) := by
  refine ⟨h.1, fun c => ?_⟩
  have hc := h.2 c
  simp only [EditLog.at, List.filter_cons] at hc ⊢
  rw [hc]

theorem alike_swap (hs : s.WellFormed config) (hne : v.cell ≠ w.cell) (ws : List Edit) :
    Alike (s.edits (v :: w :: ws)) (s.edits (w :: v :: ws)) := by
  obtain ⟨hw, hend⟩ := edit_comm hs hne
  obtain ⟨hv, -⟩ := edit_comm hs hne.symm
  simp only [edits, hw, hv, hend]
  refine ⟨rfl, fun c => ?_⟩
  simp only [EditLog.at, List.filter_cons]
  by_cases hc : v.cell = c
  · have hcw : w.cell ≠ c := hc ▸ hne.symm
    simp only [hc, hcw, decide_true, decide_false, ↓reduceIte, Bool.false_eq_true]
  · simp only [hc, decide_false, ↓reduceIte, Bool.false_eq_true]

/-- A write may be carried out ahead of writes to other cells. -/
theorem alike_toFront (hs : s.WellFormed config) (before after : List Edit)
    (hne : ∀ v ∈ before, v.cell ≠ w.cell) :
    Alike (s.edits (before ++ w :: after)) (s.edits (w :: (before ++ after))) := by
  induction before generalizing s with
  | nil => exact ⟨rfl, fun c => rfl⟩
  | cons v before ih =>
    have hrest := ih (hs.edit v) fun u hu => hne u (List.mem_cons_of_mem v hu)
    have hswap := alike_swap hs (hne v List.mem_cons_self) (before ++ after)
    have hcons := hrest.cons (v, (s.edit v).1)
    exact ⟨hcons.1.trans hswap.1, fun c => (hcons.2 c).trans (hswap.2 c)⟩

theorem alike_edits (hs : s.WellFormed config) {ws ws' : List Edit}
    (hsame : ∀ c, (ws.filter fun w => w.cell = c) = ws'.filter fun w => w.cell = c) :
    Alike (s.edits ws) (s.edits ws') := by
  induction ws generalizing s ws' with
  | nil =>
    have hnil : ws' = [] := by
      apply List.eq_nil_iff_forall_not_mem.2
      intro w hw
      have hempty := List.filter_eq_nil_iff.1 (hsame w.cell).symm w hw
      simp only [decide_true, not_true] at hempty
    rw [hnil]
    exact ⟨rfl, fun c => rfl⟩
  | cons w ws ih =>
    -- the first write comes first among those of its cell in the other list, too
    have hfirst := (hsame w.cell).symm
    rw [List.filter_cons_of_pos (by simp only [decide_true])] at hfirst
    obtain ⟨before, after, rfl, hbefore, -, hafter⟩ := List.filter_eq_cons_iff.1 hfirst
    have hne : ∀ v ∈ before, v.cell ≠ w.cell := fun v hv => by simpa using hbefore v hv
    have hrest : ∀ c, (ws.filter fun w => w.cell = c) =
        (before ++ after).filter fun w => w.cell = c := by
      intro c
      have hc := hsame c
      by_cases hwc : w.cell = c
      · subst hwc
        rw [List.filter_append, List.filter_eq_nil_iff.2 hbefore, hafter, List.nil_append]
      · rw [List.filter_append] at hc ⊢
        rwa [List.filter_cons_of_neg (by simpa using hwc),
          List.filter_cons_of_neg (by simpa using hwc)] at hc
    have hfront := alike_toFront hs before after hne
    have hcons := (ih (hs.edit w) hrest).cons (w, (s.edit w).1)
    exact ⟨hcons.1.trans hfront.1.symm, fun c => (hcons.2 c).trans (hfront.2 c).symm⟩

end Store

namespace Account

/-- The order of writes to different cells is of no account: as long as the writes to each cell keep
their order, every write is answered the same, and the store is the same in the end. -/
theorem edits_alike {config : Config} {store : Store} (hinit : Store.init config = .ok store)
    (arenas : List Arena) {a : Account} (h : Reaches (start store arenas) a) {ws ws' : List Edit}
    (hsame : ∀ c, (ws.filter fun w => w.cell = c) = ws'.filter fun w => w.cell = c) :
    (a.store.edits ws).2 = (a.store.edits ws').2 ∧
      ∀ c, (a.store.edits ws).1.at c = (a.store.edits ws').1.at c :=
  Store.alike_edits (h.wellFormed (Store.WellFormed.init hinit)) hsame

def inTurn : List Edit :=
  [⟨(⟨0⟩, 5), .put [1]⟩, ⟨(⟨0⟩, 3), .put [2]⟩, ⟨(⟨0⟩, 5), .remove⟩, ⟨(⟨1⟩, 5), .remove⟩,
    ⟨(⟨0⟩, 3), .put [4]⟩]

def shuffled : List Edit :=
  [⟨(⟨1⟩, 5), .remove⟩, ⟨(⟨0⟩, 3), .put [2]⟩, ⟨(⟨0⟩, 3), .put [4]⟩, ⟨(⟨0⟩, 5), .put [1]⟩,
    ⟨(⟨0⟩, 5), .remove⟩]

theorem edits_alike_shuffled :
    Store.init pairConfig = .ok pair ∧
      Reaches (start pair []) ((start pair []).request .usual .allocate) ∧
      (∀ c, (inTurn.filter fun w => w.cell = c) = shuffled.filter fun w => w.cell = c) ∧
      (((start pair []).request .usual .allocate).store.edits inTurn).2 =
        (((start pair []).request .usual .allocate).store.edits shuffled).2 ∧
      (((start pair []).request .usual .allocate).store.edits shuffled).1.at (⟨0⟩, 5) =
        [(⟨(⟨0⟩, 5), .put [1]⟩, .ok (.stored .inserted)),
          (⟨(⟨0⟩, 5), .remove⟩, .ok (.removed ⟨⟨0⟩, 5, [1]⟩))] := by
  have hinit : Store.init pairConfig = .ok pair := rfl
  have hreach : Reaches (start pair []) ((start pair []).request .usual .allocate) :=
    .request _ _ rfl (.refl _)
  have hsame : ∀ c, (inTurn.filter fun w => w.cell = c) = shuffled.filter fun w => w.cell = c := by
    intro c
    simp only [inTurn, shuffled, List.filter_cons, List.filter_nil, decide_eq_true_eq]
    grind
  obtain ⟨hend, hlog⟩ := edits_alike hinit [] hreach hsame
  refine ⟨hinit, hreach, hsame, hend, ?_⟩
  rw [← hlog]
  decide +kernel

end Account

end SnapshotStore
