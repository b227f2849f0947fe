import SnapshotStore.Proofs.Memory.Windows
import SnapshotStore.Proofs.Store.Write
import SnapshotStore.Store.Allocator

namespace SnapshotStore

theorem Source.length_of_fetch {src : Source} {bs : Bytes} (h : src.fetch = .ok bs) :
    bs.length = src.len := by
  cases src with
  | own bytes =>
    cases h
    rfl
  | foreign arena addr len => exact Arena.length_of_load h

theorem Entry.of_copyWithin {room : Allocator} {id : GroupId} {key : Key} {src : Source} {e : Entry}
    (h : Entry.copyWithin room id key src = .ok e) :
    ∃ bs, src.fetch = .ok bs ∧ e = ⟨id, key, bs⟩ := by
  unfold copyWithin at h
  split at h
  · cases h
  · split at h
    · cases h
    · next payload hfetch =>
      cases h
      exact ⟨payload, hfetch, rfl⟩

namespace Store

variable (room : Allocator) (s : Store) (id : GroupId) (key : Key)

theorem allocate_cases :
    (s.allocated < s.groups.length ∧
      s.allocate = (.ok (.ofSlot s.allocated), { s with allocated := s.allocated + 1 })) ∨
    s.allocate = (.error (.resourceExhausted (.groupsAllocated s.groups.length)), s) := by
  unfold allocate
  split
  · next h => exact .inl ⟨h, rfl⟩
  · exact .inr rfl

/-- A write fails before it changes anything, or it publishes an index with an entry that holds
what was fetched and is not too long. -/
theorem putFromWithin_cases (src : Source) :
    (∃ e, s.putFromWithin room id key src = (.error e, s)) ∨
    ∃ g bs, s.group id = .ok g ∧ src.fetch = .ok bs ∧ bs.length ≤ s.config.maxEntryLen ∧
      s.putFromWithin room id key src = (.ok (.ofReplaced (g.index.upsert ⟨id, key, bs⟩).2),
        s.publish id (g.index.upsert ⟨id, key, bs⟩).1
          (g.index.upsert ⟨id, key, bs⟩).2.isSome) := by
  unfold putFromWithin
  cases hg : s.group id with
  | error e => exact .inl ⟨e, rfl⟩
  | ok g =>
    dsimp only
    by_cases hlen : s.config.maxEntryLen < src.len
    · exact .inl ⟨_, if_pos hlen⟩
    · rw [if_neg hlen]
      cases hcopy : Entry.copyWithin room id key src with
      | error e => exact .inl ⟨e, rfl⟩
      | ok e =>
        obtain ⟨bs, hfetch, rfl⟩ := Entry.of_copyWithin hcopy
        have hpayload := Source.length_of_fetch hfetch
        have hle : bs.length ≤ s.config.maxEntryLen := by omega
        dsimp only
        cases hroom : (g.index.upsert ⟨id, key, bs⟩).1.reserve room with
        | error refusal => exact .inl ⟨refusal, rfl⟩
        | ok _ =>
          refine .inr ⟨g, bs, rfl, hfetch, hle, ?_⟩
          cases (g.index.upsert ⟨id, key, bs⟩).2 <;> rfl

theorem removeWithin_cases :
    (∃ e, s.removeWithin room id key = (.error e, s)) ∨
    ∃ g next e, s.group id = .ok g ∧ g.index.remove key = some (next, e) ∧
      s.removeWithin room id key = (.ok e, s.publish id next true) := by
  unfold removeWithin
  cases hg : s.group id with
  | error e => exact .inl ⟨e, rfl⟩
  | ok g =>
    dsimp only
    cases hr : g.index.remove key with
    | none => exact .inl ⟨_, rfl⟩
    | some removed =>
      obtain ⟨next, e⟩ := removed
      dsimp only
      cases hroom : next.reserve room with
      | error refusal => exact .inl ⟨refusal, rfl⟩
      | ok _ => exact .inr ⟨g, next, e, rfl, hr, rfl⟩

theorem visitAll_keeps {σ β : Type} {I : σ → Prop} {visit : Entry → σ → Option β × σ}
    (hvisit : ∀ e st, I st → I (visit e st).2) (es : List Entry) {state : σ} (h : I state) :
    I (visitAll visit es state).2 := by
  induction es generalizing state with
  | nil => exact h
  | cons e es ih =>
    have hnext := hvisit e state h
    rw [visitAll]
    generalize visit e state = answer at hnext
    obtain ⟨_ | stop, next⟩ := answer
    · exact ih hnext
    · exact hnext

/-- A visitor that keeps more than another, and shows the other what it needs, visits alike. -/
theorem visitAll_map {σ τ β : Type} {visit : Entry → σ → Option β × σ}
    {visit' : Entry → τ → Option β × τ} (f : τ → σ)
    (h : ∀ e st, visit e (f st) = ((visit' e st).1, f (visit' e st).2)) (es : List Entry)
    (state : τ) : visitAll visit es (f state) =
      ((visitAll visit' es state).1, f (visitAll visit' es state).2) := by
  induction es generalizing state with
  | nil => rfl
  | cons e es ih =>
    rw [visitAll, visitAll, h]
    generalize visit' e state = answer
    obtain ⟨_ | stop, next⟩ := answer
    · exact ih next
    · rfl

variable {s id}

theorem forEach_map {σ τ β : Type} {visit : Entry → σ → Option β × σ}
    {visit' : Entry → τ → Option β × τ} (f : τ → σ)
    (h : ∀ e st, visit e (f st) = ((visit' e st).1, f (visit' e st).2)) (state : τ) :
    s.forEach id visit (f state) = (s.forEach id visit' state).map fun r => (r.1, f r.2) := by
  unfold forEach
  cases s.snapshot id with
  | error e => rfl
  | ok snap => exact congrArg Except.ok (visitAll_map f h snap.index.toList state)

theorem exists_group_of_forEach {σ β : Type} {visit : Entry → σ → Option β × σ} {state : σ}
    {r : Option β × σ} (h : s.forEach id visit state = .ok r) : ∃ g, s.group id = .ok g := by
  cases hg : s.group id with
  | error e => simp [forEach, snapshot, hg, Except.map] at h
  | ok g => exact ⟨g, rfl⟩

theorem forEach_keeps {σ β : Type} {I : σ → Prop} {visit : Entry → σ → Option β × σ}
    (hvisit : ∀ e st, I st → I (visit e st).2) {state : σ} (h : I state) {r : Option β × σ}
    (hr : s.forEach id visit state = .ok r) : I r.2 := by
  unfold forEach at hr
  cases hsnap : s.snapshot id with
  | error e => simp [hsnap, Except.map] at hr
  | ok snap =>
    simp only [hsnap, Except.map, Except.ok.injEq] at hr
    exact hr ▸ visitAll_keeps hvisit snap.index.toList h

end Store

end SnapshotStore
