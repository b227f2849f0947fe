import SnapshotStore.Proofs.Store.Outcome
import SnapshotStore.Session.Allocator

namespace SnapshotStore

def Request.isVisit : Request → Bool
  | .forEach _ _ => true
  | _ => false

/-- What the writes of a session have answered so far. -/
structure Books where
  inserted : Nat := 0
  replaced : Nat := 0
  removed : Nat := 0
  deriving DecidableEq, Repr

namespace Books

variable (b : Books)

def puts : Nat := b.inserted + b.replaced

def writes : Nat := b.puts + b.removed

def put : PutOutcome → Books
  | .inserted => { b with inserted := b.inserted + 1 }
  | .replaced => { b with replaced := b.replaced + 1 }

def remove : Books := { b with removed := b.removed + 1 }

theorem writes_put (o : PutOutcome) : (b.put o).writes = b.writes + 1 := by
  cases o <;> simp only [put, writes, puts] <;> omega

theorem writes_remove : b.remove.writes = b.writes + 1 := rfl

def note : Request → Reply → Books
  | .put _ _ _, .outcome o => b.put o
  | .putFrom _ _ _, .outcome o => b.put o
  | .remove _ _, .entry _ => b.remove
  | _, _ => b

end Books

/-- All that a request can do to a store, and what is written down about it. -/
inductive Store.Transition (s : Store) (b : Books) : Store → Books → Prop
  | unchanged : Transition s b s b
  | allocated (hlt : s.allocated < s.groups.length) :
    Transition s b { s with allocated := s.allocated + 1 } b
  | put {id : GroupId} {g : Group} {e : Entry} (hg : s.group id = .ok g) (hid : e.group = id)
      (hlen : e.payload.length ≤ s.config.maxEntryLen) :
    Transition s b (s.publish id (g.index.upsert e).1 (g.index.upsert e).2.isSome)
      (b.put (.ofReplaced (g.index.upsert e).2))
  | removed {id : GroupId} {g : Group} {key : Key} {next : Index} {e : Entry}
      (hg : s.group id = .ok g) (hr : g.index.remove key = some (next, e)) :
    Transition s b (s.publish id next true) b.remove
  | collected (collector : Collector) (held : Bool) :
    Transition s b (s.quiesce collector held) b

/-- A session and the books that its user keeps. -/
structure Account where
  session : Session
  books : Books := {}
  deriving DecidableEq

/-- A request that the store only answers, if it is about the store at all. -/
def Request.isRead : Request → Bool
  | .allocate | .put _ _ _ | .putFrom _ _ _ | .remove _ _ | .forEach _ _ | .quiesce => false
  | _ => true

theorem Books.note_of_isRead (b : Books) {r : Request} (hr : r.isRead = true) (reply : Reply) :
    b.note r reply = b := by
  cases r with
  | put | putFrom | remove => cases hr
  | _ => rfl

namespace Session

variable (s : Session)

@[simp] theorem ask_snd {α : Type} (answer : Except StoreError α) (reply : α → Reply) :
    (s.ask answer reply).2 = s := by
  cases answer <;> rfl

@[simp] theorem act_snd {α : Type} (result : Except StoreError α × Store) (reply : α → Reply) :
    (s.act result reply).2 = { s with store := result.2 } := by
  obtain ⟨_ | _, store⟩ := result <;> rfl

@[simp] theorem withSnapshot_snd (name : String) (reply : Snapshot → Reply) :
    (s.withSnapshot name reply).2 = s := by
  unfold withSnapshot
  cases s.snapshots.get? name <;> rfl

@[simp] theorem withArena_snd (n : Nat) (reply : Arena → Reply) :
    (s.withArena n reply).2 = s := by
  unfold withArena
  cases s.arenas[n]? <;> rfl

theorem transfer_snd (n : Nat) (call : Arena → Except CopyFault Unit × Arena) :
    (s.transfer n call).2 = { s with arenas := (s.transfer n call).2.arenas } := by
  unfold transfer
  cases s.arenas[n]? with
  | none => rfl
  | some arena =>
    dsimp only
    obtain ⟨_ | _, next⟩ := call arena <;> rfl

theorem store_of_isRead (heap : Heap) {r : Request} (hr : r.isRead = true) :
    (s.stepWithin heap r).2.store = s.store := by
  cases r with
  | allocate | put | putFrom | remove | forEach | quiesce => cases hr
  | read id key offset length target =>
    simp only [stepWithin, step]
    cases target.destination? s.arenas <;> rfl
  | listKeys id capacity target =>
    simp only [stepWithin, step]
    cases target.destination? s.arenas <;> rfl
  | hold id key name =>
    simp only [stepWithin, step]
    cases s.store.get id key <;> rfl
  | held name =>
    simp only [stepWithin, step]
    cases s.held.get? name <;> rfl
  | snap id name =>
    simp only [stepWithin, step]
    cases s.store.snapshot id <;> rfl
  | arenaStore | arenaCopyOut =>
    simp only [stepWithin, step]
    rw [transfer_snd]
  | _ => simp [stepWithin, step]

end Session

namespace Account

abbrev store (a : Account) : Store := a.session.store

def request (a : Account) (heap : Heap) (r : Request) : Account where
  session := (a.session.stepWithin heap r).2
  books := a.books.note r (a.session.stepWithin heap r).1

/-- Foreign memory is not the store's: others may change it at any time. -/
def remap (a : Account) (arenas : List Arena) : Account :=
  { a with session := { a.session with arenas } }

/-- What can become of a session: requests in any order under any allocator, and visits whose
visitor, at each entry, may do with the session whatever can be done with it. -/
inductive Reaches : Account → Account → Prop
  | refl (a : Account) : Reaches a a
  | request {a b : Account} (heap : Heap) (r : Request) (hr : r.isVisit = false)
      (h : Reaches a b) : Reaches a (b.request heap r)
  | remap {a b : Account} (arenas : List Arena) (h : Reaches a b) : Reaches a (b.remap arenas)
  | visit {σ β : Type} {a b c : Account} (id : GroupId)
      {visitor : Entry → σ × Account → Option β × σ × Account}
      (hvisitor : ∀ e st, Reaches st.2 (visitor e st).2.2) {state state' : σ} {stop : Option β}
      (hvisit : b.store.forEach id visitor (state, b) = .ok (stop, state', c))
      (h : Reaches a b) : Reaches a c

theorem transition_put (a : Account) (room : Allocator) (id : GroupId) (key : Key) (src : Source) :
    ∃ result store, a.store.putFromWithin room id key src = (result, store) ∧
      a.store.Transition a.books store (result.toOption.elim a.books a.books.put) := by
  obtain ⟨e, heq⟩ | ⟨g, bs, hg, -, hlen, heq⟩ := a.store.putFromWithin_cases room id key src
  · exact ⟨_, _, heq, .unchanged⟩
  · exact ⟨_, _, heq, .put hg rfl hlen⟩

/-- Every request but a visit takes the store through one transition. -/
theorem transition (a : Account) (heap : Heap) (r : Request) (hr : r.isVisit = false) :
    a.store.Transition a.books (a.request heap r).store (a.request heap r).books := by
  cases hread : r.isRead with
  | true =>
    simp only [store, request, a.session.store_of_isRead heap hread, a.books.note_of_isRead hread]
    exact .unchanged
  | false =>
    simp only [store, request]
    cases r with
    | allocate =>
      simp only [Session.stepWithin, Session.step]
      obtain ⟨hlt, heq⟩ | heq := a.store.allocate_cases
      · rw [heq]
        exact .allocated hlt
      · rw [heq]
        exact .unchanged
    | put id key payload =>
      obtain ⟨result, next, heq, hnext⟩ := a.transition_put heap.toAllocator id key (.own payload)
      simp only [Session.stepWithin]
      rw [heq]
      cases result <;> exact hnext
    | putFrom id key origin =>
      simp only [Session.stepWithin]
      cases origin.source? a.session.arenas with
      | none => exact .unchanged
      | some src =>
        obtain ⟨result, next, heq, hnext⟩ := a.transition_put heap.toAllocator id key src
        dsimp only
        rw [heq]
        cases result <;> exact hnext
    | remove id key =>
      simp only [Session.stepWithin]
      obtain ⟨e, heq⟩ | ⟨g, next, e, hg, hrem, heq⟩ :=
        a.store.removeWithin_cases heap.toAllocator id key
      · rw [heq]
        exact .unchanged
      · rw [heq]
        exact .removed hg hrem
    | quiesce =>
      simp only [Session.stepWithin, Session.quiesce]
      exact .collected _ _
    | forEach => cases hr
    | _ => cases hread

/-- What every transition of the store keeps, every course of a session keeps. -/
theorem Reaches.keeps {P : Store → Books → Prop}
    (hstep : ∀ {s b t c}, s.Transition b t c → P s b → P t c) {a b : Account} (h : Reaches a b)
    (ha : P a.store a.books) : P b.store b.books := by
  induction h with
  | refl => exact ha
  | request heap r hr _ ih => exact hstep (transition _ heap r hr) (ih ha)
  | remap arenas _ ih => exact ih ha
  | visit id hvisitor hvisit _ hkeeps ih =>
    exact Store.forEach_keeps (I := fun st => P st.2.store st.2.books) hkeeps (ih ha) hvisit

theorem Reaches.trans {a b c : Account} (hab : Reaches a b) (hbc : Reaches b c) :
    Reaches a c := by
  induction hbc with
  | refl => exact hab
  | request heap r hr _ ih => exact .request heap r hr (ih hab)
  | remap arenas _ ih => exact .remap arenas (ih hab)
  | visit id hvisitor hvisit _ _ ih => exact .visit id hvisitor hvisit (ih hab)

/-- What the visitor of a request does with an account: it puts what it sees where it is told to. -/
def copy (v : Visit) (e : Entry) (a : Account) : Account :=
  match v.copyTo with
  | none => a
  | some id => a.request .usual (.put id e.key e.payload)

theorem reaches_copy (v : Visit) (e : Entry) (a : Account) : Reaches a (a.copy v e) := by
  unfold copy
  cases v.copyTo with
  | none => exact .refl a
  | some id => exact .request _ _ rfl (.refl a)

theorem session_copy (v : Visit) (e : Entry) (a : Account) :
    (a.copy v e).session = { a.session with store := (a.copy v e).store } := by
  unfold copy
  cases v.copyTo with
  | none => rfl
  | some id => simp only [store, request, Session.stepWithin, Session.act_snd]

theorem store_copy (v : Visit) (e : Entry) (a : Account) :
    (v.copy e a.store).2 = (a.copy v e).store := by
  unfold copy Visit.copy
  cases v.copyTo with
  | none => rfl
  | some id =>
    simp only [store, request, Session.stepWithin, Heap.toAllocator_usual,
      Store.putFromWithin_usual, Store.put]
    obtain ⟨_ | _, next⟩ := a.store.putFrom id e.key (.own e.payload) <;> rfl

def copyVisitor (v : Visit) (e : Entry) (st : List Key × Account) :
    Option Stop × List Key × Account :=
  ((v.visit e ⟨st.2.store, st.1⟩).1, e.key :: st.1, st.2.copy v e)

theorem visit_eq_copyVisitor (v : Visit) (e : Entry) (st : List Key × Account) :
    v.visit e ⟨st.2.store, st.1⟩ = ((copyVisitor v e st).1,
      ⟨(copyVisitor v e st).2.2.store, (copyVisitor v e st).2.1⟩) := by
  simp only [copyVisitor, ← store_copy, Visit.visit]
  obtain ⟨_ | _, next⟩ := v.copy e st.2.store <;> rfl

/-- A visit that a request asks for is one of those that a session's course may take. -/
theorem reaches_forEach (a : Account) (id : GroupId) (v : Visit) :
    ∃ books, Reaches a ⟨(a.session.step (.forEach id v)).2, books⟩ := by
  have hmap := @Store.forEach_map a.store id _ _ _ v.visit (copyVisitor v)
    (fun st : List Key × Account => (⟨st.2.store, st.1⟩ : Visit.Progress))
    (visit_eq_copyVisitor v) ([], a)
  -- what the request's visitor carries along is a part of what the visitor with accounts does
  simp only [Session.step, hmap]
  cases hvisit : a.store.forEach id (copyVisitor v) ([], a) with
  | error e => exact ⟨a.books, .refl a⟩
  | ok r =>
    obtain ⟨stop, seen, c⟩ := r
    have hsession : c.session = { a.session with store := c.store } :=
      Store.forEach_keeps
        (I := fun st : List Key × Account => st.2.session = { a.session with store := st.2.store })
        (fun e st h => by rw [copyVisitor, session_copy, h]) rfl hvisit
    refine ⟨c.books, ?_⟩
    have hreach : Reaches a c :=
      .visit id (fun e st => reaches_copy v e st.2) hvisit (.refl a)
    simp only [Except.map]
    rwa [← hsession]

theorem reaches_run (a : Account) (requests : List Request) :
    ∃ books, Reaches a ⟨(a.session.run requests).2, books⟩ := by
  induction requests generalizing a with
  | nil => exact ⟨a.books, .refl a⟩
  | cons r requests ih =>
    have hstep : ∃ books, Reaches a ⟨(a.session.step r).2, books⟩ := by
      by_cases hr : r.isVisit = true
      · cases r with
        | forEach id v => exact a.reaches_forEach id v
        | _ => cases hr
      · have hreach : Reaches a (a.request .usual r) :=
          .request _ r (Bool.eq_false_iff.2 hr) (.refl a)
        rw [request, Session.stepWithin_usual] at hreach
        exact ⟨_, hreach⟩
    obtain ⟨books, hstep⟩ := hstep
    obtain ⟨books', hrest⟩ := ih ⟨(a.session.step r).2, books⟩
    exact ⟨books', hstep.trans hrest⟩

end Account

end SnapshotStore
