import SnapshotStore.Proofs.Concurrent.Linearization
import SnapshotStore.Proofs.Index.Bindings
import SnapshotStore.Proofs.Store.Write

namespace SnapshotStore

namespace Publication

def Outcome.ofPut : PutOutcome → Outcome
  | .inserted => .inserted
  | .replaced => .replaced

namespace Write

def change : Write → Index.Change
  | .put e => .upsert e
  | .remove key => .remove key

def outcome (op : Write) (bound : EntryMap) : Outcome :=
  match op with
  | .put e => if (bound.lookup e.key).isSome then .replaced else .inserted
  | .remove key => (bound.lookup key).elim .notFound .removed

theorem apply_put (e : Entry) (ix : Index) :
    (Write.put e).apply ix =
      (some (ix.upsert e).1, .ofPut (.ofReplaced (ix.upsert e).2)) := by
  simp only [apply]
  generalize ix.upsert e = made
  obtain ⟨next, _ | old⟩ := made <;> rfl

theorem apply_remove_of_some {ix next : Index} {key : Key} {e : Entry}
    (h : ix.remove key = some (next, e)) :
    (Write.remove key).apply ix = (some next, .removed e) := by
  simp only [apply, h]

theorem apply_remove_of_none {ix : Index} {key : Key} (h : ix.remove key = none) :
    (Write.remove key).apply ix = (none, .notFound) := by
  simp only [apply, h]

theorem getD_apply (op : Write) (ix : Index) : (op.apply ix).1.getD ix = ix.change op.change := by
  cases op with
  | put e =>
    rw [apply_put]
    rfl
  | remove key =>
    cases h : ix.remove key with
    | none => simp [apply_remove_of_none h, change, Index.change, h]
    | some r => simp [apply_remove_of_some h, change, Index.change, h]

theorem apply_snd {ix : Index} {bound : EntryMap} (h : ix.Keeps bound) (op : Write) :
    (op.apply ix).2 = op.outcome bound := by
  cases op with
  | put e =>
    rw [apply_put, Index.upsert_snd h.ascending, h.get?]
    simp only [PutOutcome.ofReplaced, outcome]
    split <;> rfl
  | remove key =>
    cases hr : ix.remove key with
    | none =>
      have hget := (Index.remove_eq_none_iff h.ascending).1 hr
      rw [h.get?] at hget
      rw [apply_remove_of_none hr, outcome, hget]
      rfl
    | some r =>
      have hget := Index.get?_of_remove h.ascending hr
      rw [h.get?] at hget
      rw [apply_remove_of_some hr, outcome, hget]
      rfl

end Write

namespace History

def bindings (ops : List Write) : EntryMap := (ops.map Write.change).foldl EntryMap.change ∅

def answers (bound : EntryMap) : List Write → List Outcome
  | [] => []
  | op :: ops => op.outcome bound :: answers (bound.change op.change) ops

theorem bindings_concat (ops : List Write) (op : Write) :
    bindings (ops ++ [op]) = (bindings ops).change op.change := by
  simp [bindings]

theorem current_write (h : History) (op : Write) :
    (h.write op).current = h.current.change op.change := by
  rw [write_eq, Write.getD_apply]

theorem mem_published_write {h : History} {op : Write} {ix : Index}
    (hix : ix ∈ (h.write op).published) : ix ∈ h.published ∨ ix = (h.write op).current := by
  rw [write_eq] at hix ⊢
  obtain hold | hnew := List.mem_append.1 hix
  · exact .inl hold
  · exact .inr (by rw [Option.mem_toList.1 hnew, Option.getD_some])

theorem getLast?_published (ops : List Write) :
    (sequential ops).published.getLast? = some (sequential ops).current := by
  induction ops using List.reverseRecOn with
  | nil => rfl
  | append_singleton ops op ih =>
    rw [sequential_concat, write_eq]
    cases (op.apply (sequential ops).current).1 with
    | none => simpa using ih
    | some next => exact List.getLast?_concat

theorem keeps_sequential (ops : List Write) : (sequential ops).current.Keeps (bindings ops) := by
  induction ops using List.reverseRecOn with
  | nil => exact Index.keeps_origin .new
  | append_singleton ops op ih =>
    rw [sequential_concat, current_write, bindings_concat]
    exact ih.change op.change

theorem exists_bindings_of_mem {ops : List Write} {ix : Index}
    (h : ix ∈ (sequential ops).published) :
    ∃ earlier, earlier <+: ops ∧ ix.Keeps (bindings earlier) := by
  induction ops using List.reverseRecOn with
  | nil =>
    obtain rfl := List.mem_singleton.1 h
    exact ⟨[], List.nil_prefix, keeps_sequential []⟩
  | append_singleton ops op ih =>
    have hcurrent := keeps_sequential (ops ++ [op])
    rw [sequential_concat] at h hcurrent
    obtain h | rfl := mem_published_write h
    · obtain ⟨earlier, hprefix, hkeeps⟩ := ih h
      exact ⟨earlier, hprefix.trans (List.prefix_append ..), hkeeps⟩
    · exact ⟨_, List.prefix_refl _, hcurrent⟩

theorem outcomes_foldl_write (ops : List Write) {h : History} {bound : EntryMap}
    (hk : h.current.Keeps bound) :
    (ops.foldl write h).outcomes = h.outcomes ++ answers bound ops := by
  induction ops generalizing h bound with
  | nil => simp [answers]
  | cons op ops ih =>
    have hnext : (h.write op).current.Keeps (bound.change op.change) := by
      rw [current_write]
      exact hk.change op.change
    have houtcomes : (h.write op).outcomes = h.outcomes ++ [op.outcome bound] := by
      rw [write_eq, Write.apply_snd hk]
    rw [List.foldl_cons, ih hnext, houtcomes, List.append_assoc, answers]
    rfl

theorem outcomes_sequential (ops : List Write) : (sequential ops).outcomes = answers ∅ ops :=
  outcomes_foldl_write ops (Index.keeps_origin .new)

end History

open Machine

/-- A group is a map to its users: its writes change the map one after another and are answered by
it, and what is current or held by a reader stands for the map after some of the first writes. -/
theorem exists_bindings (groups : Nat) (turns : List Turn) {g : Nat} (hg : g < groups) :
    ∃ decided, (afterTurns groups turns).Serial g decided ∧
      ((afterTurns groups turns).contents ((afterTurns groups turns).current g)).Keeps
        (History.bindings (decided.map Prod.snd)) ∧
      (∃ owed, owed.length ≤ 1 ∧
        (decided.map Prod.fst).zip (History.answers ∅ (decided.map Prod.snd)) =
          (afterTurns groups turns).chronicle.returned g ++ owed) ∧
      ∀ t p o, (afterTurns groups turns).threads t = ⟨g, .holding p o⟩ →
        ∃ earlier, earlier <+: decided.map Prod.snd ∧
          ((afterTurns groups turns).contents o).Keeps (History.bindings earlier) := by
  obtain ⟨decided, hs⟩ :=
    (disciplined_afterTurns groups turns).serial (g := g) (by rwa [groups_afterTurns])
  refine ⟨decided, hs, ?_, ?_, fun t p o h => ?_⟩
  · have hlast := History.getLast?_published (decided.map Prod.snd)
    rw [← hs.published, List.getLast?_map, hs.current] at hlast
    rw [Option.some.inj hlast]
    exact History.keeps_sequential _
  · rw [← History.outcomes_sequential]
    exact hs.answered
  · refine History.exists_bindings_of_mem ?_
    rw [← hs.published]
    exact List.mem_map_of_mem (mem_of_holding h)

end Publication

namespace Store

open Publication

variable {s : Store} {id : GroupId} {g : Group} {key : Key}

/-- A put that is let through does to the index of its group what the write does. -/
theorem exists_apply_put {payload : Bytes} (hg : s.group id = .ok g)
    (hlen : payload.length ≤ s.config.maxEntryLen) (hroom : reserve payload.length = .ok ()) :
    ∃ next o, (Write.put ⟨id, key, payload⟩).apply g.index = (some next, .ofPut o) ∧
      s.put id key payload = (.ok o, s.publish id next (o = .replaced)) := by
  refine ⟨_, _, Write.apply_put .., ?_⟩
  rw [put_of_group hg hlen hroom]
  generalize g.index.upsert ⟨id, key, payload⟩ = made
  obtain ⟨next, _ | old⟩ := made <;> rfl

theorem apply_remove_cases (key : Key) (hg : s.group id = .ok g) :
    (∃ next e, (Write.remove key).apply g.index = (some next, .removed e) ∧
      s.remove id key = (.ok e, s.publish id next true)) ∨
    (Write.remove key).apply g.index = (none, .notFound) ∧
      s.remove id key = (.error (.keyNotFound id key), s) := by
  cases hr : g.index.remove key with
  | none => exact .inr ⟨Write.apply_remove_of_none hr, remove_of_none hg hr⟩
  | some r =>
    obtain ⟨next, e⟩ := r
    exact .inl ⟨next, e, Write.apply_remove_of_some hr, remove_of_some hg hr⟩

end Store

end SnapshotStore
