namespace SnapshotStore

/-- Values under names, each name bound at most once. -/
structure Named (α : Type) where
  bindings : List (String × α) := []
  deriving DecidableEq, Repr

namespace Named

variable {α : Type}

def get? (t : Named α) (name : String) : Option α := t.bindings.lookup name

def isEmpty (t : Named α) : Bool := t.bindings.isEmpty

def drop (t : Named α) (name : String) : Named α :=
  ⟨t.bindings.filter fun b => b.1 != name⟩

def bind (t : Named α) (name : String) (a : α) : Named α :=
  ⟨(name, a) :: (t.drop name).bindings⟩

@[simp] theorem get?_bind (t : Named α) (name : String) (a : α) :
    (t.bind name a).get? name = some a := by
  simp [get?, bind]

@[simp] theorem get?_drop (t : Named α) (name : String) : (t.drop name).get? name = none :=
  List.lookup_eq_none_iff.2 fun b hb => by
    have hne : b.1 ≠ name := by simpa using (List.mem_filter.1 hb).2
    simpa using hne.symm

theorem lookup_filter_ne (bs : List (String × α)) {name other : String} (h : other ≠ name) :
    (bs.filter fun b => b.1 != name).lookup other = bs.lookup other := by
  induction bs with
  | nil => rfl
  | cons b bs ih =>
    obtain ⟨k, v⟩ := b
    by_cases hk : k = name
    · subst k
      have : (other == name) = false := by simp [h]
      simp [List.lookup_cons, this, ih]
    · simp [List.lookup_cons, hk, ih]

theorem get?_bind_of_ne (t : Named α) {name other : String} (a : α) (h : other ≠ name) :
    (t.bind name a).get? other = t.get? other := by
  have hb : (other == name) = false := by simp [h]
  simp [get?, bind, drop, List.lookup_cons, hb, lookup_filter_ne _ h]

theorem get?_drop_of_ne (t : Named α) {name other : String} (h : other ≠ name) :
    (t.drop name).get? other = t.get? other := by
  simp [get?, drop, lookup_filter_ne _ h]

end Named

end SnapshotStore
