import Mathlib.Data.List.Induction
import SnapshotStore.Concurrent.Scarcity

namespace SnapshotStore.Publication

/-- Writes one after another, with all the indexes they publish and all their answers. -/
structure History where
  current : Index
  published : List Index
  outcomes : List Outcome

namespace History

def start : History := ⟨.empty, [.empty], []⟩

def write (h : History) (op : Write) : History :=
  match op.apply h.current with
  | (some next, outcome) => ⟨next, h.published ++ [next], h.outcomes ++ [outcome]⟩
  | (none, outcome) => ⟨h.current, h.published, h.outcomes ++ [outcome]⟩

def sequential (ops : List Write) : History := ops.foldl write start

theorem sequential_concat (ops : List Write) (op : Write) :
    sequential (ops ++ [op]) = (sequential ops).write op := by
  simp [sequential]

theorem write_eq (h : History) (op : Write) :
    h.write op =
      ⟨(op.apply h.current).1.getD h.current, h.published ++ (op.apply h.current).1.toList,
        h.outcomes ++ [(op.apply h.current).2]⟩ := by
  rw [write]
  generalize op.apply h.current = made
  obtain ⟨_ | next, outcome⟩ := made <;> simp

theorem length_outcomes (ops : List Write) : (sequential ops).outcomes.length = ops.length := by
  induction ops using List.reverseRecOn with
  | nil => rfl
  | append_singleton ops op ih => simp [sequential_concat, write_eq, ih]

end History

/-- What a machine holds that the writes of one group are about; `writer` has the lock. -/
structure Lane where
  current : Object
  index : Index
  published : List Index
  entered : List (Nat × Write)
  outcomes : List Outcome
  returned : List (Nat × Outcome)
  writer : Option (Nat × Phase)

namespace Lane

/-- How far the thread with the lock has come: its write is still to be decided, or it is decided
and its answer not yet given back. -/
def Stage (l : Lane) (undecided : List (Nat × Write)) (owed : List (Nat × Outcome)) : Prop :=
  match l.writer with
  | none => undecided = [] ∧ owed = []
  | some (t, .guarding op) | some (t, .loading op _) => undecided = [(t, op)] ∧ owed = []
  | some (t, .computing op _ base) => undecided = [(t, op)] ∧ owed = [] ∧ base = l.current
  | some (t, .built _ _ next outcome) =>
    ∃ op, undecided = [(t, op)] ∧ owed = [] ∧ op.apply l.index = (some next, outcome)
  | some (t, .swapped _ _ outcome)
  | some (t, .unguarding _ outcome)
  | some (t, .unlocking outcome) =>
    undecided = [] ∧ owed = [(t, outcome)]
  | some (_, .idle) | some (_, .locking _) | some (_, .pinning) | some (_, .reading _)
  | some (_, .holding _ _) => False

/-- The writes that are decided, done one after another, give what is published and answered. -/
structure Ordered (l : Lane) (decided undecided : List (Nat × Write))
    (owed : List (Nat × Outcome)) : Prop where
  entered : l.entered = decided ++ undecided
  history : History.sequential (decided.map Prod.snd) = ⟨l.index, l.published, l.outcomes⟩
  answers : (decided.map Prod.fst).zip l.outcomes = l.returned ++ owed
  stage : l.Stage undecided owed

variable {l : Lane} {decided undecided : List (Nat × Write)} {owed : List (Nat × Outcome)}
  {t : Nat} {op : Write} {outcome : Outcome}

theorem Stage.length_le (h : l.Stage undecided owed) : undecided.length + owed.length ≤ 1 := by
  unfold Stage at h
  split at h <;> grind

theorem Stage.of_none (h : l.Stage undecided owed) (hw : l.writer = none) :
    undecided = [] ∧ owed = [] := by
  simpa only [Stage, hw] using h

theorem Ordered.length_outcomes (h : l.Ordered decided undecided owed) :
    l.outcomes.length = decided.length := by
  have hl := History.length_outcomes (decided.map Prod.snd)
  rw [h.history, List.length_map] at hl
  exact hl

theorem Ordered.zip_concat (h : l.Ordered decided undecided []) :
    ((decided ++ [(t, op)]).map Prod.fst).zip (l.outcomes ++ [outcome]) =
      l.returned ++ [(t, outcome)] := by
  rw [List.map_append, List.zip_append (by rw [List.length_map, h.length_outcomes]), h.answers]
  simp

theorem Ordered.become (h : l.Ordered decided undecided owed) (phase : Phase)
    (hs : Stage { l with writer := some (t, phase) } undecided owed) :
    Ordered { l with writer := some (t, phase) } decided undecided owed :=
  ⟨h.entered, h.history, h.answers, hs⟩

theorem Ordered.enter (h : l.Ordered decided undecided owed) (hw : l.writer = none) :
    Ordered { l with entered := l.entered ++ [(t, op)], writer := some (t, .guarding op) }
      decided [(t, op)] [] := by
  obtain ⟨rfl, rfl⟩ := h.stage.of_none hw
  exact ⟨by rw [h.entered, List.append_nil], h.history, h.answers, rfl, rfl⟩

/-- A write without a next index is decided when that is found out. -/
theorem Ordered.unchanged (h : l.Ordered decided undecided owed) {p : Pin} {base : Object}
    (hw : l.writer = some (t, .computing op p base)) (ha : op.apply l.index = (none, outcome)) :
    Ordered
      { l with outcomes := l.outcomes ++ [outcome], writer := some (t, .unguarding p outcome) }
      (decided ++ [(t, op)]) [] [(t, outcome)] := by
  obtain ⟨rfl, rfl, -⟩ : undecided = [(t, op)] ∧ owed = [] ∧ base = l.current := by
    simpa only [Stage, hw] using h.stage
  refine ⟨by rw [h.entered, List.append_nil], ?_, h.zip_concat, rfl, rfl⟩
  rw [List.map_append, List.map_singleton, History.sequential_concat, h.history]
  simp only [History.write, ha]

/-- A write with a next index is decided when that takes the place of the current one. -/
theorem Ordered.publish (h : l.Ordered decided undecided owed) (current old : Object) {p : Pin}
    {base : Object} {next : Index} (hw : l.writer = some (t, .built p base next outcome)) :
    ∃ op, Ordered
      { l with
        current, index := next, published := l.published ++ [next]
        outcomes := l.outcomes ++ [outcome], writer := some (t, .swapped p old outcome) }
      (decided ++ [(t, op)]) [] [(t, outcome)] := by
  obtain ⟨op, rfl, rfl, ha⟩ : ∃ op, undecided = [(t, op)] ∧ owed = [] ∧
      op.apply l.index = (some next, outcome) := by simpa only [Stage, hw] using h.stage
  refine ⟨op, by rw [h.entered, List.append_nil], ?_, h.zip_concat, rfl, rfl⟩
  rw [List.map_append, List.map_singleton, History.sequential_concat, h.history]
  simp only [History.write, ha]

theorem Ordered.leave (h : l.Ordered decided undecided owed)
    (hw : l.writer = some (t, .unlocking outcome)) :
    Ordered { l with returned := l.returned ++ [(t, outcome)], writer := none } decided [] [] := by
  obtain ⟨rfl, rfl⟩ : undecided = [] ∧ owed = [(t, outcome)] := by
    simpa only [Stage, hw] using h.stage
  exact ⟨h.entered, h.history, by rw [h.answers, List.append_nil], rfl, rfl⟩

theorem Ordered.release (h : l.Ordered decided undecided owed)
    (hw : l.writer = some (t, .guarding op)) :
    Ordered { l with entered := l.entered.dropLast, writer := none } decided [] [] := by
  obtain ⟨rfl, rfl⟩ : undecided = [(t, op)] ∧ owed = [] := by
    simpa only [Stage, hw] using h.stage
  refine ⟨?_, h.history, h.answers, rfl, rfl⟩
  rw [h.entered, List.dropLast_concat, List.append_nil]

end Lane

namespace Machine

variable (m : Machine) (g : Nat)

def lane : Lane where
  current := m.current g
  index := m.contents (m.current g)
  published := (m.chronicle.published g).map m.contents
  entered := m.chronicle.entered g
  outcomes := m.chronicle.outcomes g
  returned := m.chronicle.returned g
  writer := (m.holder g).map fun t => (t, (m.threads t).phase)

variable {m g} {t : Nat}

theorem phase_become_self (phase : Phase) : ((m.become t phase).threads t).phase = phase := by
  simp [become]

theorem lane_set_threads (thread : Thread) (h : m.holder g ≠ some t) :
    lane { m with threads := Function.update m.threads t thread } g = m.lane g := by
  cases hh : m.holder g with
  | none => simp [lane, hh]
  | some t' =>
    have hne : t' ≠ t := fun he => h (by rw [hh, he])
    simp [lane, hh, Function.update_of_ne hne]

theorem lane_become_of_ne (phase : Phase) (h : m.holder g ≠ some t) :
    (m.become t phase).lane g = m.lane g := lane_set_threads _ h

theorem lane_become_self (phase : Phase) (h : m.holder g = some t) :
    (m.become t phase).lane g = { m.lane g with writer := some (t, phase) } := by
  simp [lane, become, h]

theorem lane_record (group : Nat) (outcome : Outcome) :
    (m.record group outcome).lane g =
      if g = group then { m.lane g with outcomes := (m.lane g).outcomes ++ [outcome] }
      else m.lane g := by
  by_cases h : g = group
  · subst h
    simp [lane, record]
  · simp [lane, record, h]

theorem lane_enter (group : Nat) (op : Write) :
    (m.enter t group op).lane g =
      if g = group then
        { m.lane g with
          entered := (m.lane g).entered ++ [(t, op)]
          writer := some (t, (m.threads t).phase) }
      else m.lane g := by
  by_cases h : g = group
  · subst h
    simp [lane, enter]
  · simp [lane, enter, h]

theorem lane_leave (group : Nat) (outcome : Outcome) :
    (m.leave t group outcome).lane g =
      if g = group then
        { m.lane g with returned := (m.lane g).returned ++ [(t, outcome)], writer := none }
      else m.lane g := by
  by_cases h : g = group
  · subst h
    simp [lane, leave]
  · simp [lane, leave, h]

theorem lane_release (group : Nat) :
    (m.release group).lane g =
      if g = group then
        { m.lane g with entered := (m.lane g).entered.dropLast, writer := none }
      else m.lane g := by
  by_cases h : g = group
  · subst h
    simp [lane, release]
  · simp [lane, release, h]

theorem lane_swap (group : Nat) (next : Index)
    (hfresh : ∀ o ∈ m.chronicle.published g, o < m.fresh) (hcurrent : m.current g < m.fresh) :
    (m.swap group next).lane g =
      if g = group then
        { m.lane g with
          current := m.fresh, index := next, published := (m.lane g).published ++ [next] }
      else m.lane g := by
  have hmap : (m.chronicle.published g).map (Function.update m.contents m.fresh next) =
      (m.chronicle.published g).map m.contents :=
    List.map_congr_left fun o ho => Function.update_of_ne (Nat.ne_of_lt (hfresh o ho)) ..
  by_cases h : g = group
  · subst h
    simp [lane, swap, hmap]
  · simp [lane, swap, h, hmap, Function.update_of_ne (Nat.ne_of_lt hcurrent)]

end Machine

end SnapshotStore.Publication
