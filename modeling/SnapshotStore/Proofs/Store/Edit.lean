import SnapshotStore.Proofs.Store.Cell

namespace SnapshotStore

/-- What a write wants to do to a cell. -/
inductive Change where
  | put (payload : Bytes)
  | remove
  deriving DecidableEq, Repr

structure Edit where
  cell : Cell
  change : Change
  deriving DecidableEq, Repr

/-- What a write that succeeds is answered. -/
inductive Receipt where
  | stored (outcome : PutOutcome)
  | removed (e : Entry)
  deriving DecidableEq, Repr

theorem Reclamation.retire_comm (r : Reclamation) (b c : Bool) :
    (r.retire b).retire c = (r.retire c).retire b := by
  cases b <;> cases c <;> rfl

namespace Store

def edit (s : Store) (w : Edit) : Except StoreError Receipt × Store :=
  match w.change with
  | .put payload =>
    ((s.put w.cell.1 w.cell.2 payload).1.map .stored, (s.put w.cell.1 w.cell.2 payload).2)
  | .remove => ((s.remove w.cell.1 w.cell.2).1.map .removed, (s.remove w.cell.1 w.cell.2).2)

/-- What a write comes to: its failure, or its answer and what it leaves in its cell. -/
def verdict (s : Store) (w : Edit) : Except StoreError (Receipt × Option Entry) :=
  if w.cell.1.slot < s.allocated then
    match w.change with
    | .put payload =>
      if s.config.maxEntryLen < payload.length then
        .error (.invalidArgument (.payloadTooLong payload.length s.config.maxEntryLen))
      else
        match reserve payload.length with
        | .error refusal => .error (.outOfMemory (.payload payload.length refusal))
        | .ok () =>
          .ok (.stored (.ofReplaced (s.held w.cell)), some ⟨w.cell.1, w.cell.2, payload⟩)
    | .remove =>
      match s.held w.cell with
      | none => .error (.keyNotFound w.cell.1 w.cell.2)
      | some e => .ok (.removed e, none)
  else
    .error (.groupNotFound w.cell.1)

variable {config : Config} {s t : Store} {id : GroupId} {g : Group}

theorem edit_of_le {w : Edit} (h : s.allocated ≤ w.cell.1.slot) :
    s.verdict w = .error (.groupNotFound w.cell.1) ∧
      s.edit w = (.error (.groupNotFound w.cell.1), s) := by
  obtain ⟨⟨id, key⟩, change⟩ := w
  refine ⟨if_neg (Nat.not_lt.2 h), ?_⟩
  cases change with
  | put payload =>
    simp only [edit, put_of_le h]
    rfl
  | remove =>
    simp only [edit, remove_of_le h]
    rfl

/-- What a verdict says comes true: a failure changes nothing, a success sets the cell. -/
def Comes (config : Config) (s : Store) (w : Edit) : Prop :=
  (∃ e, s.verdict w = .error e ∧ s.edit w = (.error e, s)) ∨
    ∃ r next t, s.verdict w = .ok (r, next) ∧ s.edit w = (.ok r, t) ∧ s.Sets w.cell next t ∧
      t.WellFormed config

theorem comes_put (hs : s.WellFormed config) (hg : s.group id = .ok g) (key : Key)
    (payload : Bytes) : Comes config s ⟨(id, key), .put payload⟩ := by
  have hid := (group_eq_ok.1 hg).1
  by_cases hlen : s.config.maxEntryLen < payload.length
  · refine .inl ⟨.invalidArgument (.payloadTooLong payload.length s.config.maxEntryLen), ?_, ?_⟩
    · simp only [verdict, hid, hlen, ↓reduceIte]
    · simp only [edit, put_of_tooLong hg hlen]
      rfl
  · cases hroom : reserve payload.length with
    | error refusal =>
      refine .inl ⟨.outOfMemory (.payload payload.length refusal), ?_, ?_⟩
      · simp only [verdict, hid, hlen, ↓reduceIte, hroom]
      · simp only [edit, put, putFrom, hg, Source.len, hlen, ↓reduceIte, Entry.copyFrom, hroom]
        rfl
    | ok _ =>
      obtain ⟨t, hput, hset, ht⟩ := put_sets hs hg key (Nat.not_lt.1 hlen) hroom
      refine .inr ⟨.stored (.ofReplaced (s.held (id, key))), some ⟨id, key, payload⟩, t, ?_, ?_,
        hset, ht⟩
      · simp only [verdict, hid, hlen, ↓reduceIte, hroom]
      · simp only [edit, hput]
        rfl

theorem comes_remove (hs : s.WellFormed config) (hg : s.group id = .ok g) (key : Key) :
    Comes config s ⟨(id, key), .remove⟩ := by
  have hid := (group_eq_ok.1 hg).1
  have hascending := hs.ascending hg
  have hheld := held_of_group hg key
  cases hrem : g.index.remove key with
  | none =>
    rw [(Index.remove_eq_none_iff hascending).1 hrem] at hheld
    refine .inl ⟨.keyNotFound id key, ?_, ?_⟩
    · simp only [verdict, hid, ↓reduceIte, hheld]
    · simp only [edit, remove_of_none hg hrem]
      rfl
  | some removed =>
    obtain ⟨next, e⟩ := removed
    have hsome := Index.get?_of_remove hascending hrem
    rw [hsome] at hheld
    refine .inr ⟨.removed e, none, s.publish id next true, ?_, ?_,
      .publish hg (Index.get?_remove hascending hrem) (by rw [hsome]; rfl), hs.remove hg hrem _⟩
    · simp only [verdict, hid, ↓reduceIte, hheld]
    · simp only [edit, remove_of_some hg hrem]
      rfl

theorem comes_edit (hs : s.WellFormed config) (w : Edit) : Comes config s w := by
  by_cases hid : w.cell.1.slot < s.allocated
  · obtain ⟨⟨id, key⟩, change⟩ := w
    obtain ⟨g, -, hg⟩ := hs.exists_group hid
    cases change with
    | put payload => exact comes_put hs hg key payload
    | remove => exact comes_remove hs hg key
  · exact .inl ⟨_, edit_of_le (Nat.not_lt.1 hid)⟩

theorem edit_of_error (hs : s.WellFormed config) {w : Edit} {e : StoreError}
    (h : s.verdict w = .error e) : s.edit w = (.error e, s) := by
  obtain ⟨e', hv, hedit⟩ | ⟨r, next, t, hv, -⟩ := comes_edit hs w
  · rw [hv] at h
    cases h
    exact hedit
  · rw [hv] at h
    cases h

theorem edit_of_ok (hs : s.WellFormed config) {w : Edit} {r : Receipt} {next : Option Entry}
    (h : s.verdict w = .ok (r, next)) :
    ∃ t, s.edit w = (.ok r, t) ∧ s.Sets w.cell next t ∧ t.WellFormed config := by
  obtain ⟨e, hv, -⟩ | ⟨r', next', t, hv, hedit, hset, ht⟩ := comes_edit hs w
  · rw [hv] at h
    cases h
  · rw [hv] at h
    cases h
    exact ⟨t, hedit, hset, ht⟩

theorem WellFormed.edit (hs : s.WellFormed config) (w : Edit) : (s.edit w).2.WellFormed config := by
  obtain ⟨e, -, hedit⟩ | ⟨r, next, t, -, hedit, -, ht⟩ := comes_edit hs w
  · rw [hedit]
    exact hs
  · rw [hedit]
    exact ht

theorem Sets.verdict {c : Cell} {next : Option Entry} (h : s.Sets c next t) {w : Edit}
    (hne : w.cell ≠ c) : t.verdict w = s.verdict w := by
  simp only [Store.verdict, h.config, h.allocated, h.held, Function.update_of_ne hne]

/-- No write has a say in what comes of a write to another cell. -/
theorem verdict_edit (hs : s.WellFormed config) {v w : Edit} (hne : w.cell ≠ v.cell) :
    (s.edit v).2.verdict w = s.verdict w := by
  obtain ⟨e, -, hedit⟩ | ⟨r, next, t, -, hedit, hset, -⟩ := comes_edit hs v
  · rw [hedit]
  · rw [hedit]
    exact hset.verdict hne

theorem edit_comm (hs : s.WellFormed config) {v w : Edit} (hne : v.cell ≠ w.cell) :
    ((s.edit v).2.edit w).1 = (s.edit w).1 ∧
      ((s.edit v).2.edit w).2 = ((s.edit w).2.edit v).2 := by
  have hvw := verdict_edit hs hne.symm
  have hwv := verdict_edit hs hne
  cases hv : s.verdict v with
  | error e =>
    rw [hv] at hwv
    rw [edit_of_error hs hv, edit_of_error (hs.edit w) hwv]
    exact ⟨rfl, rfl⟩
  | ok x =>
    obtain ⟨t, hedit, hset, ht⟩ := edit_of_ok hs hv
    rw [hedit] at hvw ⊢
    cases hw : s.verdict w with
    | error e =>
      rw [edit_of_error ht (hvw.trans hw), edit_of_error hs hw, hedit]
      exact ⟨rfl, rfl⟩
    | ok y =>
      obtain ⟨t', hedit', hset', ht'⟩ := edit_of_ok hs hw
      rw [hedit'] at hwv ⊢
      obtain ⟨u, hu, hsetu, hfu⟩ := edit_of_ok ht (hvw.trans hw)
      obtain ⟨u', hu', hsetu', hfu'⟩ := edit_of_ok ht' (hwv.trans hv)
      rw [hu, hu']
      refine ⟨rfl, eq_of_held hfu hfu' ?_ ?_ ?_⟩
      · rw [hsetu.allocated, hsetu'.allocated, hset.allocated, hset'.allocated]
      · rw [hsetu.reclaimer, hsetu'.reclaimer, hset.reclaimer, hset'.reclaimer, hset.held,
          hset'.held, Function.update_of_ne hne.symm, Function.update_of_ne hne,
          Reclamation.retire_comm]
      · rw [hsetu.held, hsetu'.held, hset.held, hset'.held, Function.update_comm hne]

end Store

end SnapshotStore
