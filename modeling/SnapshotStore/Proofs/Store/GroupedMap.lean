import SnapshotStore.Proofs.Index.Map
import SnapshotStore.Proofs.Store.Write

namespace SnapshotStore

/-- A call on a store. A view or a visitor may be any function of the entries it is handed; the
visitors here never stop and do not write. -/
inductive Call (α : Type) where
  | allocate
  | put (id : GroupId) (key : Key) (payload : Bytes)
  | remove (id : GroupId) (key : Key)
  | get (id : GroupId) (key : Key)
  | withEntry (id : GroupId) (key : Key) (view : Entry → α)
  | groupSize (id : GroupId)
  | forEach (id : GroupId) (visit : Entry → α → α) (state : α)
  | iterate (id : GroupId)
  | iterateKeys (id : GroupId)
  | iterateFrom (id : GroupId) (start : Key)

inductive Answer (α : Type) where
  | allocated (id : GroupId)
  | stored (outcome : PutOutcome)
  | entry (e : Entry)
  | viewed (a : α)
  | size (n : Nat)
  | visited (stop : Option Unit) (state : α)
  | entries (es : List Entry)
  | keys (ks : List Key)

abbrev Reaction (α : Type) := Except StoreError (Answer α)

def reactions {σ α : Type} (step : σ → Call α → Reaction α × σ) (s : σ) :
    List (Call α) → List (Reaction α)
  | [] => []
  | c :: calls => (step s c).1 :: reactions step (step s c).2 calls

/-- Memory can be had for the payload of a call, if the store gets as far as asking for it. -/
def Call.HasRoom {α : Type} (config : Config) : Call α → Prop
  | .put _ _ payload => payload.length ≤ config.maxEntryLen → reserve payload.length = .ok ()
  | _ => True

namespace Store

variable {α : Type}

def call (s : Store) : Call α → Reaction α × Store
  | .allocate => (s.allocate.1.map .allocated, s.allocate.2)
  | .put id key payload => ((s.put id key payload).1.map .stored, (s.put id key payload).2)
  | .remove id key => ((s.remove id key).1.map .entry, (s.remove id key).2)
  | .get id key => ((s.get id key).map .entry, s)
  | .withEntry id key view => ((s.withEntry id key view).map .viewed, s)
  | .groupSize id => ((s.groupSize id).map .size, s)
  | .forEach id visit state =>
    ((s.forEach id (fun e st => (none, visit e st)) state).map fun r => .visited r.1 r.2, s)
  | .iterate id => ((s.snapshot id).map fun snap => .entries snap.index.toList, s)
  | .iterateKeys id => ((s.snapshot id).map fun snap => .keys snap.index.keys, s)
  | .iterateFrom id start => ((s.snapshot id).map fun snap => .entries (snap.index.tail start), s)

end Store

/-- What a store means to its users: how many groups are handed out, and a finite map for each. -/
structure GroupedMap where
  config : Config
  allocated : Nat := 0
  maps : Nat → PayloadMap := fun _ => ∅

namespace GroupedMap

variable {α : Type} (a : GroupedMap)

def map? (id : GroupId) : Except StoreError PayloadMap :=
  if id.slot < a.allocated then .ok (a.maps id.slot) else .error (.groupNotFound id)

def update (id : GroupId) (m : PayloadMap) : GroupedMap :=
  { a with maps := Function.update a.maps id.slot m }

def allocate : Reaction α × GroupedMap :=
  if a.allocated < a.config.maxGroups then
    (.ok (.allocated (.ofSlot a.allocated)), { a with allocated := a.allocated + 1 })
  else (.error (.resourceExhausted (.groupsAllocated a.config.maxGroups)), a)

def put (id : GroupId) (key : Key) (payload : Bytes) (m : PayloadMap) : Reaction α × GroupedMap :=
  if a.config.maxEntryLen < payload.length then
    (.error (.invalidArgument (.payloadTooLong payload.length a.config.maxEntryLen)), a)
  else
    (.ok (.stored (if key ∈ m then .replaced else .inserted)), a.update id (m.insert key payload))

def remove (id : GroupId) (key : Key) (m : PayloadMap) : Reaction α × GroupedMap :=
  match m.entryAt id key with
  | none => (.error (.keyNotFound id key), a)
  | some e => (.ok (.entry e), a.update id (m.erase key))

/-- A call on a group that is not handed out says so; else it depends on the map of the group. -/
def onGroup (id : GroupId) (act : PayloadMap → Reaction α × GroupedMap) :
    Reaction α × GroupedMap :=
  match a.map? id with
  | .error e => (.error e, a)
  | .ok m => act m

def ask (id : GroupId) (answer : PayloadMap → Reaction α) : Reaction α × GroupedMap :=
  a.onGroup id fun m => (answer m, a)

def find (id : GroupId) (key : Key) (answer : Entry → Answer α) (m : PayloadMap) : Reaction α :=
  (m.entryAt id key).elim (.error (.keyNotFound id key)) fun e => .ok (answer e)

def call : Call α → Reaction α × GroupedMap
  | .allocate => a.allocate
  | .put id key payload => a.onGroup id (a.put id key payload)
  | .remove id key => a.onGroup id (a.remove id key)
  | .get id key => a.ask id (find id key .entry)
  | .withEntry id key view => a.ask id (find id key fun e => .viewed (view e))
  | .groupSize id => a.ask id fun m => .ok (.size m.keys.card)
  | .forEach id visit state => a.ask id fun m =>
    .ok (.visited none ((m.entries id).foldl (fun st e => visit e st) state))
  | .iterate id => a.ask id fun m => .ok (.entries (m.entries id))
  | .iterateKeys id => a.ask id fun m => .ok (.keys m.ascendingKeys)
  | .iterateFrom id start => a.ask id fun m =>
    .ok (.entries ((m.entries id).filter fun e => start ≤ e.key))

theorem onGroup_of_lt {a : GroupedMap} {id : GroupId} (h : id.slot < a.allocated)
    (act : PayloadMap → Reaction α × GroupedMap) : a.onGroup id act = act (a.maps id.slot) := by
  simp [onGroup, map?, h]

theorem onGroup_of_le {a : GroupedMap} {id : GroupId} (h : a.allocated ≤ id.slot)
    (act : PayloadMap → Reaction α × GroupedMap) :
    a.onGroup id act = (.error (.groupNotFound id), a) := by
  simp [onGroup, map?, Nat.not_lt.2 h]

end GroupedMap

/-- A store and its meaning: the same counter, and behind each group an index for its map. -/
structure Refines (s : Store) (a : GroupedMap) : Prop where
  config : s.config = a.config
  length : s.groups.length = a.config.maxGroups
  allocated : s.allocated = a.allocated
  allocated_le : a.allocated ≤ a.config.maxGroups
  represents : ∀ (n : Nat) (g : Group), s.groups[n]? = some g →
    g.index.Represents (.ofSlot n) (a.maps n)

namespace Refines

def Agrees {α : Type} (r : Reaction α × Store) (b : Reaction α × GroupedMap) : Prop :=
  r.1 = b.1 ∧ Refines r.2 b.2

variable {α : Type} {s : Store} {a : GroupedMap} (h : Refines s a)

include h

theorem group {id : GroupId} (hid : id.slot < a.allocated) :
    ∃ g, s.group id = .ok g ∧ g.index.Represents id (a.maps id.slot) := by
  have hlen : id.slot < s.groups.length := h.length ▸ Nat.lt_of_lt_of_le hid h.allocated_le
  have hget := List.getElem?_eq_getElem hlen
  have hr := h.represents _ _ hget
  rw [GroupId.ofSlot_slot] at hr
  exact ⟨_, Store.group_eq_ok.2 ⟨h.allocated ▸ hid, hget⟩, hr⟩

theorem publish {id : GroupId} {next : Index} {m : PayloadMap} (gaveWay : Bool)
    (hr : next.Represents id m) : Refines (s.publish id next gaveWay) (a.update id m) where
  config := h.config
  length := (Store.length_publish s id next gaveWay).trans h.length
  allocated := h.allocated
  allocated_le := h.allocated_le
  represents := by
    intro n g hg
    obtain ⟨old, rfl, -, rfl⟩ | ⟨hne, hold⟩ := Store.publish_cases hg
    · simpa [GroupedMap.update, GroupId.ofSlot_slot] using hr
    · simpa [GroupedMap.update, Function.update_apply, Ne.symm hne] using h.represents n g hold

theorem call_allocate : Agrees (s.call .allocate) (a.call (α := α) .allocate) := by
  by_cases hlt : a.allocated < a.config.maxGroups
  · have hs : s.allocated < s.groups.length := by rwa [h.allocated, h.length]
    simp only [Store.call, Store.allocate, hs, GroupedMap.call, GroupedMap.allocate, hlt,
      ↓reduceIte]
    refine ⟨by rw [h.allocated]; rfl, ?_⟩
    exact ⟨h.config, h.length, congrArg (· + 1) h.allocated, hlt, h.represents⟩
  · have hs : ¬ s.allocated < s.groups.length := by rwa [h.allocated, h.length]
    simp only [Store.call, Store.allocate, hs, GroupedMap.call, GroupedMap.allocate, hlt,
      ↓reduceIte]
    exact ⟨by rw [h.length]; rfl, h⟩

theorem call_put {id : GroupId} {key : Key} {payload : Bytes}
    (hroom : (Call.put id key payload : Call α).HasRoom a.config) :
    Agrees (s.call (.put id key payload)) (a.call (α := α) (.put id key payload)) := by
  simp only [Store.call, GroupedMap.call]
  by_cases hid : id.slot < a.allocated
  · obtain ⟨g, hg, hr⟩ := h.group hid
    rw [GroupedMap.onGroup_of_lt hid, GroupedMap.put]
    by_cases hlen : a.config.maxEntryLen < payload.length
    · rw [if_pos hlen, Store.put_of_tooLong hg (h.config ▸ hlen), h.config]
      exact ⟨rfl, h⟩
    · have hle := Nat.not_lt.1 hlen
      rw [if_neg hlen, Store.put_of_group hg (h.config ▸ hle) (hroom hle)]
      refine ⟨?_, h.publish _ (hr.upsert key payload)⟩
      simp only [PutOutcome.ofReplaced, hr.upsert_isSome]
      rfl
  · have hle := Nat.not_lt.1 hid
    rw [GroupedMap.onGroup_of_le hle, Store.put_of_le (h.allocated ▸ hle)]
    exact ⟨rfl, h⟩

theorem call_remove (id : GroupId) (key : Key) :
    Agrees (s.call (.remove id key)) (a.call (α := α) (.remove id key)) := by
  simp only [Store.call, GroupedMap.call]
  by_cases hid : id.slot < a.allocated
  · obtain ⟨g, hg, hr⟩ := h.group hid
    rw [GroupedMap.onGroup_of_lt hid, GroupedMap.remove]
    obtain ⟨hnone, hrem⟩ | ⟨next, e, hsome, hrem, hnext⟩ := hr.remove key
    · rw [Store.remove_of_none hg hrem, hnone]
      exact ⟨rfl, h⟩
    · rw [Store.remove_of_some hg hrem, hsome]
      exact ⟨rfl, h.publish true hnext⟩
  · have hle := Nat.not_lt.1 hid
    rw [GroupedMap.onGroup_of_le hle, Store.remove_of_le (h.allocated ▸ hle)]
    exact ⟨rfl, h⟩

theorem ask_of {id : GroupId} {x : Reaction α} {answer : PayloadMap → Reaction α}
    (hle : s.allocated ≤ id.slot → x = .error (.groupNotFound id))
    (hok : ∀ g, s.group id = .ok g → g.index.Represents id (a.maps id.slot) →
      x = answer (a.maps id.slot)) : Agrees (x, s) (a.ask id answer) := by
  by_cases hid : id.slot < a.allocated
  · obtain ⟨g, hg, hr⟩ := h.group hid
    rw [GroupedMap.ask, GroupedMap.onGroup_of_lt hid]
    exact ⟨hok g hg hr, h⟩
  · rw [GroupedMap.ask, GroupedMap.onGroup_of_le (Nat.not_lt.1 hid)]
    exact ⟨hle (h.allocated ▸ Nat.not_lt.1 hid), h⟩

theorem ask_withEntry (id : GroupId) (key : Key) {β : Type} (view : Entry → β)
    (answer : β → Answer α) :
    Agrees ((s.withEntry id key view).map answer, s)
      (a.ask id (GroupedMap.find id key fun e => answer (view e))) := by
  refine h.ask_of (fun hid => ?_) fun g hg hr => ?_
  · rw [Store.withEntry_of_le view hid]
    rfl
  · rw [Store.withEntry_of_group view hg, hr.get?, GroupedMap.find]
    cases (a.maps id.slot).entryAt id key <;> rfl

theorem ask_snapshot (id : GroupId) (answer : Index → Answer α) (answer' : PayloadMap → Answer α)
    (heq : ∀ (ix : Index) (m : PayloadMap), ix.Represents id m → answer ix = answer' m) :
    Agrees ((s.snapshot id).map fun snap => answer snap.index, s)
      (a.ask id fun m => .ok (answer' m)) := by
  refine h.ask_of (fun hid => ?_) fun g hg hr => ?_
  · rw [Store.snapshot, Store.group_of_le hid]
    rfl
  · rw [Store.snapshot_of_group hg, ← heq _ _ hr]
    rfl

/-- Every call is answered as the map says, and what holds before it holds after it. -/
theorem call (c : Call α) (hroom : c.HasRoom a.config) : Agrees (s.call c) (a.call c) := by
  cases c with
  | allocate => exact h.call_allocate
  | put id key payload => exact h.call_put hroom
  | remove id key => exact h.call_remove id key
  | get id key => exact h.ask_withEntry id key (fun e => e) .entry
  | withEntry id key view => exact h.ask_withEntry id key view .viewed
  | groupSize id =>
    refine h.ask_of (fun hid => ?_) fun g hg hr => ?_
    · rw [Store.groupSize, Store.group_of_le hid]
      rfl
    · rw [← hr.size_eq, Store.groupSize, hg]
      rfl
  | forEach id visit state =>
    refine h.ask_of (fun hid => ?_) fun g hg hr => ?_
    · rw [Store.forEach, Store.snapshot, Store.group_of_le hid]
      rfl
    · rw [Store.forEach, Store.snapshot_of_group hg, ← hr.toList_eq]
      simp only [Except.map, Store.visitAll_of_continue]
  | iterate id => exact h.ask_snapshot id _ _ fun ix m hr => congrArg Answer.entries hr.toList_eq
  | iterateKeys id => exact h.ask_snapshot id _ _ fun ix m hr => congrArg Answer.keys hr.keys_eq
  | iterateFrom id start =>
    refine h.ask_snapshot id (fun ix => .entries (ix.tail start)) _ fun ix m hr => ?_
    rw [Index.tail_eq_filter hr.ascending, hr.toList_eq]

end Refines

theorem GroupedMap.config_call {α : Type} (a : GroupedMap) (c : Call α) :
    (a.call c).2.config = a.config := by
  have hon : ∀ (id : GroupId) (act : PayloadMap → Reaction α × GroupedMap),
      (∀ m, (act m).2.config = a.config) → (a.onGroup id act).2.config = a.config := by
    intro id act hact
    by_cases hid : id.slot < a.allocated
    · rw [onGroup_of_lt hid]
      exact hact _
    · rw [onGroup_of_le (Nat.not_lt.1 hid)]
  cases c with
  | allocate =>
    rw [call, allocate]
    split <;> rfl
  | put id key payload =>
    refine hon id _ fun m => ?_
    rw [put]
    split <;> rfl
  | remove id key =>
    refine hon id _ fun m => ?_
    rw [remove]
    split <;> rfl
  | get id | withEntry id | groupSize id | forEach id | iterate id | iterateKeys id
  | iterateFrom id => exact hon id _ fun m => rfl

namespace Store

variable {α : Type}

theorem reactions_eq_of_refines {s : Store} {a : GroupedMap} (h : Refines s a)
    (calls : List (Call α)) (hroom : ∀ c ∈ calls, c.HasRoom a.config) :
    reactions call s calls = reactions GroupedMap.call a calls := by
  induction calls generalizing s a with
  | nil => rfl
  | cons c calls ih =>
    obtain ⟨hanswer, hnext⟩ := h.call c (hroom c (by simp))
    rw [reactions, reactions, hanswer, ih hnext]
    intro d hd
    rw [GroupedMap.config_call]
    exact hroom d (by simp [hd])

theorem refines_init {config : Config} (h : config.validate = .ok ()) :
    ∃ s, Store.init config = .ok s ∧ Refines s { config := config } := by
  refine ⟨_, Store.init_eq_ok.2 ⟨h, rfl⟩, rfl, by simp, rfl, Nat.zero_le _, ?_⟩
  intro n g hg
  obtain ⟨hn, rfl⟩ := List.getElem?_eq_some_iff.1 hg
  simpa using Index.represents_empty

/-- A store that was set up answers every sequence of calls as finite maps under a counter do. -/
theorem reactions_init_eq_groupedMap {config : Config} (h : config.validate = .ok ())
    (calls : List (Call α)) (hroom : ∀ c ∈ calls, c.HasRoom config) :
    ∃ s, Store.init config = .ok s ∧
      reactions call s calls = reactions GroupedMap.call { config := config } calls := by
  obtain ⟨s, hs, hr⟩ := refines_init h
  exact ⟨s, hs, reactions_eq_of_refines hr calls hroom⟩

def narrowConfig : Config := { maxGroups := 1, maxEntryLen := 2 }

def firstCalls : List (Call Nat) :=
  [.get ⟨0⟩ 5, .allocate, .allocate, .put ⟨0⟩ 5 [1, 2], .put ⟨0⟩ 3 [], .put ⟨0⟩ 5 [7],
    .put ⟨0⟩ 4 [1, 2, 3], .remove ⟨0⟩ 3, .remove ⟨0⟩ 3, .iterate ⟨0⟩]

theorem reactions_firstCalls :
    narrowConfig.validate = .ok () ∧ (∀ c ∈ firstCalls, c.HasRoom narrowConfig) ∧
      ∃ s, Store.init narrowConfig = .ok s ∧
        reactions call s firstCalls =
          reactions GroupedMap.call { config := narrowConfig } firstCalls := by
  have hvalid : narrowConfig.validate = .ok () := rfl
  have hreserve : ∀ n ≤ 2, reserve n = .ok () := fun n hn =>
    reserve_of_lt (Nat.lt_of_le_of_lt hn (by decide))
  have hroom : ∀ c ∈ firstCalls, c.HasRoom narrowConfig := by
    simp [firstCalls, Call.HasRoom, narrowConfig, hreserve]
  exact ⟨hvalid, hroom, reactions_init_eq_groupedMap hvalid firstCalls hroom⟩

end Store

end SnapshotStore
