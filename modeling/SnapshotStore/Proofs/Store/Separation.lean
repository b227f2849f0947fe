import SnapshotStore.Proofs.Store.Edit

namespace SnapshotStore

/-- A call that is addressed to one group. Views, visitors and questions about a snapshot may be any
functions of what they are handed; the visitors here may stop but do not write. -/
inductive GroupCall (α : Type) where
  | edit (key : Key) (change : Change)
  | get (key : Key)
  | withEntry (key : Key) (view : Entry → α)
  | read (key : Key) (offset length : Nat) (buffer : Bytes)
  | listKeys (capacity : Nat) (buffer : List Key)
  | forEach (visit : Entry → α → Option α × α) (state : α)
  | groupSize
  | snapshot
  /-- Ask the snapshot that was taken of the group after `n` others. -/
  | ask (n : Nat) (question : Snapshot → α)

inductive ClientCall (α : Type) where
  | allocate
  | on (id : GroupId) (call : GroupCall α)

def ClientCall.concerns {α : Type} (id : GroupId) : ClientCall α → Bool
  | .allocate => true
  | .on other _ => other = id

inductive Response (α : Type) where
  | failed (e : StoreError)
  | noSnapshot
  | allocated (id : GroupId)
  | receipt (r : Receipt)
  | entry (e : Entry)
  | viewed (a : α)
  | read (result : Except StoreError Nat) (dst : Destination UInt8)
  | listed (result : Except StoreError Nat) (dst : Destination Key)
  | visited (stop : Option α) (state : α)
  | size (n : Nat)
  | snapshot (s : Snapshot)

def Response.of {α β : Type} (answer : Except StoreError β) (respond : β → Response α) :
    Response α :=
  match answer with
  | .ok b => respond b
  | .error e => .failed e

/-- A store and the snapshots that were taken of each of its groups. -/
structure Client where
  store : Store
  snapshots : GroupId → List Snapshot := fun _ => []

namespace Client

variable {α : Type}

def callGroup (c : Client) (id : GroupId) : GroupCall α → Response α × Client
  | .edit key change =>
    (.of (c.store.edit ⟨(id, key), change⟩).1 .receipt,
      { c with store := (c.store.edit ⟨(id, key), change⟩).2 })
  | .get key => (.of (c.store.get id key) .entry, c)
  | .withEntry key view => (.of (c.store.withEntry id key view) .viewed, c)
  | .read key offset length buffer =>
    let (result, dst) := c.store.read id key offset length (.own buffer)
    (.read result dst, c)
  | .listKeys capacity buffer =>
    let (result, dst) := c.store.listKeys id capacity (.own buffer)
    (.listed result dst, c)
  | .forEach visit state =>
    (.of (c.store.forEach id visit state) fun r => .visited r.1 r.2, c)
  | .groupSize => (.of (c.store.groupSize id) .size, c)
  | .snapshot =>
    match c.store.snapshot id with
    | .ok snap =>
      (.snapshot snap,
        { c with snapshots := Function.update c.snapshots id (c.snapshots id ++ [snap]) })
    | .error e => (.failed e, c)
  | .ask n question =>
    ((c.snapshots id)[n]?.elim .noSnapshot fun snap => .viewed (question snap), c)

def call (c : Client) : ClientCall α → Response α × Client
  | .allocate => (.of c.store.allocate.1 .allocated, { c with store := c.store.allocate.2 })
  | .on id call => c.callGroup id call

def run (c : Client) : List (ClientCall α) → List (ClientCall α × Response α) × Client
  | [] => ([], c)
  | call :: calls =>
    ((call, (c.call call).1) :: ((c.call call).2.run calls).1, ((c.call call).2.run calls).2)

end Client

namespace Store

variable {s t : Store} {id : GroupId}

theorem edit_of_group_eq (hconfig : s.config = t.config) (hgroup : s.group id = t.group id)
    (key : Key) (change : Change) :
    (∃ e, s.edit ⟨(id, key), change⟩ = (.error e, s) ∧ t.edit ⟨(id, key), change⟩ = (.error e, t)) ∨
    ∃ r next gaveWay, s.edit ⟨(id, key), change⟩ = (.ok r, s.publish id next gaveWay) ∧
      t.edit ⟨(id, key), change⟩ = (.ok r, t.publish id next gaveWay) := by
  cases change with
  | put payload =>
    simp only [edit, put, putFrom, hgroup, hconfig]
    cases t.group id with
    | error e => exact .inl ⟨e, rfl, rfl⟩
    | ok g =>
      dsimp only
      split
      · exact .inl ⟨_, rfl, rfl⟩
      · cases Entry.copyFrom id key (.own payload) with
        | error e => exact .inl ⟨e, rfl, rfl⟩
        | ok e =>
          dsimp only
          generalize g.index.upsert e = made
          obtain ⟨next, _ | old⟩ := made
          · exact .inr ⟨.stored .inserted, next, false, rfl, rfl⟩
          · exact .inr ⟨.stored .replaced, next, true, rfl, rfl⟩
  | remove =>
    simp only [edit, remove, hgroup]
    cases t.group id with
    | error e => exact .inl ⟨e, rfl, rfl⟩
    | ok g =>
      dsimp only
      cases g.index.remove key with
      | none => exact .inl ⟨_, rfl, rfl⟩
      | some removed => exact .inr ⟨.removed removed.2, removed.1, true, rfl, rfl⟩

end Store

namespace Client

/-- Clients that cannot be told apart by calls on one group. -/
structure Agree (id : GroupId) (c d : Client) : Prop where
  config : c.store.config = d.store.config
  length : c.store.groups.length = d.store.groups.length
  allocated : c.store.allocated = d.store.allocated
  group : c.store.groups[id.slot]? = d.store.groups[id.slot]?
  snapshots : c.snapshots id = d.snapshots id

variable {α : Type} {id : GroupId} {c d : Client}

namespace Agree

theorem refl (id : GroupId) (c : Client) : Agree id c c := ⟨rfl, rfl, rfl, rfl, rfl⟩

theorem trans {e : Client} (h : Agree id c d) (h' : Agree id d e) : Agree id c e :=
  ⟨h.config.trans h'.config, h.length.trans h'.length, h.allocated.trans h'.allocated,
    h.group.trans h'.group, h.snapshots.trans h'.snapshots⟩

theorem symm (h : Agree id c d) : Agree id d c :=
  ⟨h.config.symm, h.length.symm, h.allocated.symm, h.group.symm, h.snapshots.symm⟩

variable (h : Agree id c d)

include h

theorem group_eq : c.store.group id = d.store.group id := by
  rw [Store.group, Store.group, h.allocated, h.group]

theorem snapshot_eq : c.store.snapshot id = d.store.snapshot id := by
  rw [Store.snapshot, Store.snapshot, h.group_eq]

theorem publish (other : GroupId) (next : Index) (gaveWay : Bool) :
    Agree id { c with store := c.store.publish other next gaveWay }
      { d with store := d.store.publish other next gaveWay } where
  config := h.config
  length := by rw [Store.length_publish, Store.length_publish, h.length]
  allocated := h.allocated
  group := by rw [Store.getElem?_publish, Store.getElem?_publish, h.group]
  snapshots := h.snapshots

/-- A call on the group is answered the same, and leaves no difference behind. -/
theorem callGroup (call : GroupCall α) :
    (c.callGroup id call).1 = (d.callGroup id call).1 ∧
      Agree id (c.callGroup id call).2 (d.callGroup id call).2 := by
  have hsnap := h.snapshot_eq
  cases call with
  | edit key change =>
    obtain ⟨e, hc, hd⟩ | ⟨r, next, gaveWay, hc, hd⟩ :=
      Store.edit_of_group_eq h.config h.group_eq key change
    · simp only [Client.callGroup, hc, hd]
      exact ⟨trivial, h⟩
    · simp only [Client.callGroup, hc, hd]
      exact ⟨trivial, h.publish id next gaveWay⟩
  | get key => exact ⟨by simp only [Client.callGroup, Store.get, Store.withEntry, hsnap], h⟩
  | withEntry key view => exact ⟨by simp only [Client.callGroup, Store.withEntry, hsnap], h⟩
  | read key offset length buffer =>
    have hget : c.store.get id key = d.store.get id key := by
      simp only [Store.get, Store.withEntry, hsnap]
    exact ⟨by simp only [Client.callGroup, Store.read, hget], h⟩
  | listKeys capacity buffer =>
    exact ⟨by simp only [Client.callGroup, Store.listKeys, hsnap], h⟩
  | forEach visit state => exact ⟨by simp only [Client.callGroup, Store.forEach, hsnap], h⟩
  | groupSize => exact ⟨by simp only [Client.callGroup, Store.groupSize, h.group_eq], h⟩
  | snapshot =>
    simp only [Client.callGroup, hsnap]
    cases d.store.snapshot id with
    | error e => exact ⟨rfl, h⟩
    | ok snap =>
      refine ⟨rfl, h.config, h.length, h.allocated, h.group, ?_⟩
      simp only [Function.update_self, h.snapshots]
  | ask n question => exact ⟨by simp only [Client.callGroup, h.snapshots], h⟩

theorem allocate :
    (c.call (.allocate : ClientCall α)).1 = (d.call .allocate).1 ∧
      Agree id (c.call (.allocate : ClientCall α)).2 (d.call (.allocate : ClientCall α)).2 := by
  simp only [Client.call, Store.allocate, h.allocated, h.length]
  split
  · exact ⟨rfl, h.config, h.length, rfl, h.group, h.snapshots⟩
  · exact ⟨rfl, h⟩

end Agree

/-- A call on another group makes no difference. -/
theorem agree_callGroup {other : GroupId} (hne : other ≠ id) (c : Client) (call : GroupCall α) :
    Agree id c (c.callGroup other call).2 := by
  cases call with
  | edit key change =>
    have hgroup : c.store.group other = c.store.group other := rfl
    obtain ⟨e, hc, -⟩ | ⟨r, next, gaveWay, hc, -⟩ :=
      Store.edit_of_group_eq rfl hgroup key change
    · simp only [callGroup, hc]
      exact .refl id c
    · simp only [callGroup, hc]
      have hslot : other.slot ≠ id.slot := fun heq => hne (GroupId.slot_inj heq)
      refine ⟨rfl, (Store.length_publish ..).symm, rfl, ?_, rfl⟩
      rw [Store.getElem?_publish, if_neg hslot]
  | snapshot =>
    simp only [callGroup]
    cases c.store.snapshot other with
    | error e => exact .refl id c
    | ok snap => exact ⟨rfl, rfl, rfl, rfl, (Function.update_of_ne hne.symm ..).symm⟩
  | _ => exact .refl id c

theorem Agree.run (h : Agree id c d) (calls : List (ClientCall α)) :
    (c.run calls).1.filter (fun r => r.1.concerns id) =
        (d.run (calls.filter fun call => call.concerns id)).1 ∧
      Agree id (c.run calls).2 (d.run (calls.filter fun call => call.concerns id)).2 := by
  induction calls generalizing c d with
  | nil => exact ⟨rfl, h⟩
  | cons call calls ih =>
    cases hcall : call.concerns id with
    | true =>
      have hstep : (c.call call).1 = (d.call call).1 ∧
          Agree id (c.call call).2 (d.call call).2 := by
        cases call with
        | allocate => exact h.allocate
        | on other call =>
          obtain rfl : other = id := of_decide_eq_true hcall
          exact h.callGroup call
      obtain ⟨hlog, hend⟩ := ih hstep.2
      simp only [Client.run, List.filter_cons, hcall, ↓reduceIte, hlog, hstep.1]
      exact ⟨trivial, hend⟩
    | false =>
      have hstep : Agree id (c.call call).2 d := by
        cases call with
        | allocate => cases hcall
        | on other call => exact (agree_callGroup (of_decide_eq_false hcall) c call).symm.trans h
      simp only [Client.run, List.filter_cons, hcall, Bool.false_eq_true, ↓reduceIte]
      exact ih hstep

/-- Groups are kept apart: without the calls on all other groups, those on a group and those that
hand out groups would have been answered the same, and the group would have ended the same. -/
theorem run_separate (c : Client) (id : GroupId) (calls : List (ClientCall α)) :
    (c.run calls).1.filter (fun r => r.1.concerns id) =
        (c.run (calls.filter fun call => call.concerns id)).1 ∧
      (c.run calls).2.store.groups[id.slot]? =
        (c.run (calls.filter fun call => call.concerns id)).2.store.groups[id.slot]? := by
  obtain ⟨hlog, hend⟩ := (Agree.refl id c).run calls
  exact ⟨hlog, hend.group⟩

end Client

end SnapshotStore
