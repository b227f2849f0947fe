import SnapshotStore.Proofs.Index.Update
import SnapshotStore.Store.Read
import SnapshotStore.Store.Write

namespace SnapshotStore

def PutOutcome.ofReplaced (old : Option Entry) : PutOutcome :=
  if old.isSome then .replaced else .inserted

theorem reserve_of_lt {len : Nat} (h : len < allocatorLimit) : reserve len = .ok () := by
  have hbuffer : ¬ maxBuffer < len := by
    simp only [maxBuffer, allocatorLimit] at h ⊢
    omega
  rw [reserve, if_neg hbuffer, if_neg (Nat.not_le.2 h)]

namespace Store

variable {s : Store} {id : GroupId} {g : Group} {key : Key}

theorem init_eq_ok {config : Config} : init config = .ok s ↔
    config.validate = .ok () ∧
      s = ⟨config, (List.range config.maxGroups).map fun n => ⟨.ofSlot n, .empty⟩, 0,
        { eager := config.eagerReclaim }⟩ := by
  rw [init]
  cases config.validate with
  | error e => simp
  | ok => simp [eq_comm]

theorem group_eq_ok :
    s.group id = .ok g ↔ id.slot < s.allocated ∧ s.groups[id.slot]? = some g := by
  unfold group
  split
  · next h =>
    cases s.groups[id.slot]? <;> simp [h]
  · next h => simp [h]

theorem group_of_le (h : s.allocated ≤ id.slot) : s.group id = .error (.groupNotFound id) := by
  simp [group, Nat.not_lt.2 h]

theorem snapshot_of_group (h : s.group id = .ok g) : s.snapshot id = .ok ⟨id, g.index⟩ := by
  simp [snapshot, h, Except.map]

section Publish

variable (s id) (ix : Index) (gaveWay : Bool)

@[simp] theorem counts_publish :
    (s.publish id ix gaveWay).reclaimer.counts = s.reclaimer.counts.retire gaveWay := rfl

@[simp] theorem length_publish : (s.publish id ix gaveWay).groups.length = s.groups.length := by
  simp [publish]

theorem getElem?_publish (n : Nat) :
    (s.publish id ix gaveWay).groups[n]? =
      if id.slot = n then s.groups[n]?.map fun g => { g with index := ix } else s.groups[n]? := by
  by_cases h : id.slot = n
  · subst h
    simp [publish]
  · simp [publish, h]

variable {s id ix gaveWay}

theorem publish_cases {n : Nat} (hg : (s.publish id ix gaveWay).groups[n]? = some g) :
    (∃ old, id.slot = n ∧ s.groups[n]? = some old ∧ g = { old with index := ix }) ∨
      id.slot ≠ n ∧ s.groups[n]? = some g := by
  rw [getElem?_publish] at hg
  by_cases hn : id.slot = n
  · rw [if_pos hn] at hg
    obtain ⟨old, hold, rfl⟩ := Option.map_eq_some_iff.1 hg
    exact .inl ⟨old, hn, hold, rfl⟩
  · rw [if_neg hn] at hg
    exact .inr ⟨hn, hg⟩

theorem group_publish (hg : s.group id = .ok g) :
    (s.publish id ix gaveWay).group id = .ok { g with index := ix } := by
  obtain ⟨hid, hslot⟩ := group_eq_ok.1 hg
  refine group_eq_ok.2 ⟨hid, ?_⟩
  rw [getElem?_publish, if_pos rfl, hslot]
  rfl

end Publish

theorem put_of_group {payload : Bytes} (hg : s.group id = .ok g)
    (hlen : payload.length ≤ s.config.maxEntryLen) (hroom : reserve payload.length = .ok ()) :
    s.put id key payload =
      (.ok (.ofReplaced (g.index.upsert ⟨id, key, payload⟩).2),
        s.publish id (g.index.upsert ⟨id, key, payload⟩).1
          (g.index.upsert ⟨id, key, payload⟩).2.isSome) := by
  have hentry : Entry.copyFrom id key (.own payload) = .ok ⟨id, key, payload⟩ := by
    simp [Entry.copyFrom, Source.len, Source.fetch, hroom]
  simp only [put, putFrom, hg, Source.len, Nat.not_lt.2 hlen, ↓reduceIte, hentry]
  obtain ⟨next, old⟩ := g.index.upsert ⟨id, key, payload⟩
  cases old <;> rfl

theorem put_of_tooLong {payload : Bytes} (hg : s.group id = .ok g)
    (hlen : s.config.maxEntryLen < payload.length) :
    s.put id key payload =
      (.error (.invalidArgument (.payloadTooLong payload.length s.config.maxEntryLen)), s) := by
  simp [put, putFrom, hg, Source.len, hlen]

theorem put_of_le {payload : Bytes} (h : s.allocated ≤ id.slot) :
    s.put id key payload = (.error (.groupNotFound id), s) := by
  simp [put, putFrom, group_of_le h]

theorem put_cases (s : Store) (id : GroupId) (key : Key) (payload : Bytes) :
    (∃ e, s.put id key payload = (.error e, s)) ∨
    ∃ g, s.group id = .ok g ∧ s.put id key payload =
      (.ok (.ofReplaced (g.index.upsert ⟨id, key, payload⟩).2),
        s.publish id (g.index.upsert ⟨id, key, payload⟩).1
          (g.index.upsert ⟨id, key, payload⟩).2.isSome) := by
  cases hg : s.group id with
  | error e => exact .inl ⟨e, by simp only [put, putFrom, hg]⟩
  | ok g =>
    by_cases hlen : payload.length ≤ s.config.maxEntryLen
    · cases hroom : reserve payload.length with
      | error refusal =>
        refine .inl ⟨.outOfMemory (.payload payload.length refusal), ?_⟩
        simp [put, putFrom, hg, Source.len, Nat.not_lt.2 hlen, Entry.copyFrom, hroom]
      | ok _ => exact .inr ⟨g, rfl, put_of_group hg hlen hroom⟩
    · exact .inl ⟨_, put_of_tooLong hg (Nat.not_le.1 hlen)⟩

theorem remove_of_some {next : Index} {e : Entry} (hg : s.group id = .ok g)
    (hr : g.index.remove key = some (next, e)) :
    s.remove id key = (.ok e, s.publish id next true) := by
  simp [remove, hg, hr]

theorem remove_of_none (hg : s.group id = .ok g) (hr : g.index.remove key = none) :
    s.remove id key = (.error (.keyNotFound id key), s) := by
  simp [remove, hg, hr]

theorem remove_of_le (h : s.allocated ≤ id.slot) :
    s.remove id key = (.error (.groupNotFound id), s) := by
  simp [remove, group_of_le h]

theorem withEntry_of_group {α : Type} (view : Entry → α) (hg : s.group id = .ok g) :
    s.withEntry id key view =
      (g.index.get? key).elim (.error (.keyNotFound id key)) fun e => .ok (view e) := by
  simp only [withEntry, snapshot_of_group hg]
  cases g.index.get? key <;> rfl

theorem withEntry_of_le {α : Type} (view : Entry → α) (h : s.allocated ≤ id.slot) :
    s.withEntry id key view = .error (.groupNotFound id) := by
  simp [withEntry, snapshot, group_of_le h, Except.map]

theorem visitAll_of_continue {σ β : Type} (visit : Entry → σ → σ) (es : List Entry) (state : σ) :
    visitAll (fun e st => ((none : Option β), visit e st)) es state =
      (none, es.foldl (fun st e => visit e st) state) := by
  induction es generalizing state with
  | nil => rfl
  | cons e es ih => exact ih (visit e state)

end Store

end SnapshotStore
