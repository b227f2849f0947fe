import SnapshotStore.Proofs.Session.Course
import SnapshotStore.Proofs.Store.WellFormed

namespace SnapshotStore

theorem Store.WellFormed.transition {config : Config} {s t : Store} {b c : Books}
    (h : s.WellFormed config) (ht : s.Transition b t c) : t.WellFormed config := by
  cases ht with
  | unchanged => exact h
  | allocated hlt => exact h.allocate hlt
  | put hg hid hlen => exact h.put hg hid hlen _
  | removed hg hr => exact h.remove hg hr _
  | collected collector held => exact h.quiesce collector held

namespace Account

def start (store : Store) (arenas : List Arena) : Account :=
  { session := { store, arenas } }

theorem Reaches.wellFormed {config : Config} {a b : Account} (h : Reaches a b)
    (ha : a.store.WellFormed config) : b.store.WellFormed config :=
  h.keeps (P := fun s _ => s.WellFormed config) (fun ht hs => hs.transition ht) ha

/-- However a store that was set up has been used: it has all its groups, no more of them are
handed out than there are, each holds its own entries in order and within the limit, and a group
that is not handed out holds none. -/
theorem wellFormed_of_reaches {config : Config} {store : Store}
    (hinit : Store.init config = .ok store) (arenas : List Arena) {a : Account}
    (h : Reaches (start store arenas) a) :
    a.store.WellFormed config ∧
      (∀ id : GroupId, id.slot < a.store.allocated →
        ∃ g, a.store.groups[id.slot]? = some g ∧ a.store.group id = .ok g) ∧
      ∀ requests, (a.session.run requests).2.store.WellFormed config := by
  have ha : a.store.WellFormed config := h.wellFormed (Store.WellFormed.init hinit)
  refine ⟨ha, fun id hid => ha.exists_group hid, fun requests => ?_⟩
  obtain ⟨books, hrun⟩ := a.reaches_run requests
  exact hrun.wellFormed ha

def pairConfig : Config := { maxGroups := 2, maxEntryLen := 2 }

def pair : Store where
  config := pairConfig
  groups := [⟨⟨0⟩, .empty⟩, ⟨⟨1⟩, .empty⟩]
  allocated := 0
  reclaimer := { eager := false }

def twoEntries : Account :=
  (((start pair []).request .usual .allocate).request .usual (.put ⟨0⟩ 5 [1, 2])).request .usual
    (.put ⟨0⟩ 6 [3])

theorem reaches_twoEntries : Reaches (start pair []) twoEntries :=
  .request _ _ rfl (.request _ _ rfl (.request _ _ rfl (.refl _)))

def doubler (e : Entry) (st : Unit × Account) : Option Unit × Unit × Account :=
  (none, (), st.2.request .usual (.put ⟨0⟩ (e.key + 1) e.payload))

/-- The account of one group with an entry that a visitor has doubled. -/
def doubled : Account where
  session := { store := { pair with
    groups := [⟨⟨0⟩, ⟨#[⟨⟨0⟩, 5, [1, 2]⟩, ⟨⟨0⟩, 6, [1, 2]⟩]⟩⟩, ⟨⟨1⟩, .empty⟩]
    allocated := 1
    reclaimer := { eager := false, counts := { retiredIndexes := 2 } } } }
  books := { inserted := 2 }

def beforeDoubling : Account :=
  ((((start pair []).request .usual .allocate).request .usual (.put ⟨0⟩ 5 [1, 2])).request .usual
    (.put ⟨0⟩ 7 [1, 2, 3])).request .usual (.put ⟨1⟩ 7 [1])

theorem reaches_doubled : Reaches (start pair []) doubled := by
  have hbefore : Reaches (start pair []) beforeDoubling :=
    .request _ _ rfl (.request _ _ rfl (.request _ _ rfl (.request _ _ rfl (.refl _))))
  have hvisitor : ∀ e st, Reaches st.2 (doubler e st).2.2 :=
    fun e st => .request _ _ rfl (.refl _)
  have hvisit : beforeDoubling.store.forEach ⟨0⟩ doubler ((), beforeDoubling) =
      .ok (none, (), doubled) := by decide +kernel
  exact .visit ⟨0⟩ hvisitor hvisit hbefore

theorem wellFormed_doubled :
    Store.init pairConfig = .ok pair ∧ Reaches (start pair []) doubled ∧
      doubled.store.WellFormed pairConfig ∧
      ∃ g, doubled.store.groups[0]? = some g ∧ doubled.store.group ⟨0⟩ = .ok g := by
  have hinit : Store.init pairConfig = .ok pair := rfl
  obtain ⟨hformed, hgroup, -⟩ := wellFormed_of_reaches hinit [] reaches_doubled
  exact ⟨hinit, reaches_doubled, hformed, hgroup ⟨0⟩ (by decide)⟩

end Account

end SnapshotStore
