import SnapshotStore.Proofs.Session.Representation
import SnapshotStore.Proofs.Store.Views

namespace SnapshotStore

namespace Request

def asks (name : String) : Request → Bool
  | .snapInfo other | .snapEntries other | .snapKeys other => other = name
  | .snapGet other _ | .snapSearch other _ | .snapRange other _ => other = name
  | _ => false

def isKeeping : Request → Bool
  | .hold _ _ _ | .snap _ _ | .snapDrop _ => true
  | _ => false

end Request

def Snapshot.answer (snap : Snapshot) : Request → Reply
  | .snapGet _ key => .found (snap.index.get? key)
  | .snapSearch _ key => .place (snap.index.search key)
  | .snapEntries _ => .entries snap.index.toList
  | .snapKeys _ => .keys snap.index.keys
  | .snapRange _ first => .entries (snap.index.tail first)
  | _ => .snapshot snap

namespace Session

variable {s t : Session} {name : String} {r : Request}

/-- Whether a request takes its snapshot from a name: it drops it, or it keeps another there. -/
def dropsSnapshot (name : String) (s : Session) : Request → Bool
  | .snap id other => other = name && (s.store.snapshot id).isOk
  | .snapDrop other => other = name
  | _ => false

def dropsEntry (name : String) (s : Session) : Request → Bool
  | .hold id key other => other = name && (s.store.get id key).isOk
  | _ => false

theorem kept_of_not_isKeeping (heap : Heap) (hr : r.isKeeping = false) :
    (s.stepWithin heap r).2.snapshots = s.snapshots ∧
      (s.stepWithin heap r).2.held = s.held := by
  cases r with
  | hold | snap | snapDrop => cases hr
  | putFrom id key origin =>
    simp only [stepWithin]
    cases origin.source? s.arenas with
    | none => exact ⟨rfl, rfl⟩
    | some src => simp only [act_snd, and_self]
  | read id key offset length target =>
    simp only [stepWithin, step]
    cases target.destination? s.arenas <;> exact ⟨rfl, rfl⟩
  | listKeys id capacity target =>
    simp only [stepWithin, step]
    cases target.destination? s.arenas <;> exact ⟨rfl, rfl⟩
  | forEach id v =>
    simp only [stepWithin, step]
    cases s.store.forEach id v.visit { store := s.store, seen := [] } <;> exact ⟨rfl, rfl⟩
  | held other =>
    simp only [stepWithin, step]
    cases s.held.get? other <;> exact ⟨rfl, rfl⟩
  | quiesce => exact ⟨rfl, rfl⟩
  | arenaStore | arenaCopyOut =>
    simp only [stepWithin, step]
    rw [transfer_snd]
    exact ⟨rfl, rfl⟩
  | _ => simp [stepWithin, step]

theorem snapshot_of_not_drops (heap : Heap) (hr : s.dropsSnapshot name r = false) :
    (s.stepWithin heap r).2.snapshots.get? name = s.snapshots.get? name := by
  cases hkeeping : r.isKeeping with
  | false => rw [(kept_of_not_isKeeping heap hkeeping).1]
  | true =>
    cases r with
    | hold id key other =>
      simp only [stepWithin, step]
      cases s.store.get id key <;> rfl
    | snap id other =>
      simp only [stepWithin, step]
      cases hsnap : s.store.snapshot id with
      | error e => rfl
      | ok snap =>
        -- a snapshot that is taken can only have gone to another name
        have hne : name ≠ other := by
          rintro rfl
          simp [dropsSnapshot, hsnap, Except.isOk, Except.toBool] at hr
        exact Named.get?_bind_of_ne _ snap hne
    | snapDrop other => exact Named.get?_drop_of_ne _ fun heq => of_decide_eq_false hr heq.symm
    | _ => cases hkeeping

theorem entry_of_not_drops (heap : Heap) (hr : s.dropsEntry name r = false) :
    (s.stepWithin heap r).2.held.get? name = s.held.get? name := by
  cases hkeeping : r.isKeeping with
  | false => rw [(kept_of_not_isKeeping heap hkeeping).2]
  | true =>
    cases r with
    | hold id key other =>
      simp only [stepWithin, step]
      cases hget : s.store.get id key with
      | error e => rfl
      | ok e =>
        have hne : name ≠ other := by
          rintro rfl
          simp [dropsEntry, hget, Except.isOk, Except.toBool] at hr
        exact Named.get?_bind_of_ne _ e hne
    | snap id other =>
      simp only [stepWithin, step]
      cases s.store.snapshot id <;> rfl
    | snapDrop other => rfl
    | _ => cases hkeeping

theorem reply_of_asks {snap : Snapshot} (heap : Heap)
    (hsnap : s.snapshots.get? name = some snap) (hr : r.asks name = true) :
    s.stepWithin heap r = (snap.answer r, s) := by
  cases r with
  | snapInfo | snapGet | snapSearch | snapEntries | snapKeys | snapRange =>
    obtain rfl := of_decide_eq_true hr
    simp only [stepWithin, step, withSnapshot, hsnap, Snapshot.answer]
  | _ => cases hr

/-- What can become of a session while only what is `allowed` is done: requests in any order under
any allocator, and visits whose visitor does at each entry whatever is allowed. Foreign memory is
not the store's and may change at any time. -/
inductive Continues (allowed : Session → Request → Prop) : Session → Session → Prop
  | refl (s : Session) : Continues allowed s s
  | request {s t : Session} (heap : Heap) {r : Request} (hr : allowed t r)
      (h : Continues allowed s t) : Continues allowed s (t.stepWithin heap r).2
  | remap {s t : Session} (arenas : List Arena) (h : Continues allowed s t) :
    Continues allowed s { t with arenas }
  | visit {σ β : Type} {s t u : Session} (id : GroupId)
      {visitor : Entry → σ × Session → Option β × σ × Session}
      (hvisitor : ∀ e st, Continues allowed st.2 (visitor e st).2.2) {state state' : σ}
      {stop : Option β} (hvisit : t.store.forEach id visitor (state, t) = .ok (stop, state', u))
      (h : Continues allowed s t) : Continues allowed s u

/-- What every allowed request keeps, and what is not about foreign memory, is kept. -/
theorem Continues.keeps {allowed : Session → Request → Prop} {P : Session → Prop}
    (hstep : ∀ {s r} heap, allowed s r → P s → P (s.stepWithin heap r).2)
    (hremap : ∀ {s} arenas, P s → P { s with arenas }) (h : Continues allowed s t) (hs : P s) :
    P t := by
  induction h with
  | refl => exact hs
  | request heap hr _ ih => exact hstep heap hr (ih hs)
  | remap arenas _ ih => exact hremap arenas (ih hs)
  | visit id _ hvisit _ hkeeps ih =>
    -- at each entry the session that the visitor carries along goes on as allowed
    exact Store.forEach_keeps (I := fun st => P st.2) hkeeps (ih hs) hvisit

theorem Continues.snapshot (h : Continues (fun s r => s.dropsSnapshot name r = false) s t) :
    t.snapshots.get? name = s.snapshots.get? name :=
  h.keeps (P := fun u => u.snapshots.get? name = s.snapshots.get? name)
    (fun heap hr hu => (snapshot_of_not_drops heap hr).trans hu) (fun _ hu => hu) rfl

theorem Continues.entry (h : Continues (fun s r => s.dropsEntry name r = false) s t) :
    t.held.get? name = s.held.get? name :=
  h.keeps (P := fun u => u.held.get? name = s.held.get? name)
    (fun heap hr hu => (entry_of_not_drops heap hr).trans hu) (fun _ hu => hu) rfl

end Session

namespace Account

/-- A snapshot of a group agrees with the store at the moment when it is taken, and until it is
dropped it goes on to answer as it did then, whatever is done with the store. An entry that was got
from the store is kept alike. -/
theorem snapshot_isolated {config : Config} {store : Store}
    (hinit : Store.init config = .ok store) (arenas : List Arena) {a : Account}
    (h : Reaches (start store arenas) a) {id : GroupId} (hid : id.slot < a.store.allocated)
    (heap : Heap) :
    ∃ snap : Snapshot, snap.group = id ∧ snap.AgreesWith a.store ∧
      (∀ name, (a.session.stepWithin heap (.snap id name)).1 = .size snap.index.size ∧
        ∀ t, Session.Continues (fun s r => s.dropsSnapshot name r = false)
            (a.session.stepWithin heap (.snap id name)).2 t →
          ∀ r : Request, r.asks name = true → ∀ heap', t.stepWithin heap' r = (snap.answer r, t)) ∧
      ∀ key e, a.store.get id key = .ok e → e.group = id ∧ e.key = key ∧
        ∀ name t, Session.Continues (fun s r => s.dropsEntry name r = false)
            (a.session.stepWithin heap (.hold id key name)).2 t →
          ∀ heap', t.stepWithin heap' (.held name) = (.held e, t) := by
  have hs := h.wellFormed (Store.WellFormed.init hinit)
  obtain ⟨g, -, hg⟩ := hs.exists_group hid
  have hsnap := Store.snapshot_of_group hg
  have hagrees := hs.agreesWith hg
  refine ⟨⟨id, g.index⟩, rfl, hagrees, fun name => ?_, fun key e hget => ?_⟩
  · have hstep : a.session.stepWithin heap (.snap id name) = (.size g.index.size,
        { a.session with snapshots := a.session.snapshots.bind name ⟨id, g.index⟩ }) := by
      simp only [Session.stepWithin, Session.step, hsnap]
    rw [hstep]
    refine ⟨rfl, fun t ht r hr heap' => ?_⟩
    have hkept := ht.snapshot
    rw [Named.get?_bind] at hkept
    exact Session.reply_of_asks heap' hkept hr
  · obtain ⟨hmem, hkey⟩ :=
      (Index.get?_eq_some_iff (hs.ascending hg)).1 (hagrees.get_eq_ok.1 hget)
    refine ⟨(hs.entry_group hg hmem).1, hkey, fun name t ht heap' => ?_⟩
    have hstep : a.session.stepWithin heap (.hold id key name) = (.done,
        { a.session with held := a.session.held.bind name e }) := by
      simp only [Session.stepWithin, Session.step, hget]
    rw [hstep] at ht
    have hkept := ht.entry
    rw [Named.get?_bind] at hkept
    simp only [Session.stepWithin, Session.step, hkept]

def eraser (e : Entry) (st : Unit × Session) : Option Unit × Unit × Session :=
  (none, (), (st.2.stepWithin .usual (.put e.group e.key [])).2)

/-- The session of `twoEntries` with a snapshot, after a removal and a visit by `eraser`. -/
def erased : Session where
  store := { pair with
    groups := [⟨⟨0⟩, ⟨#[⟨⟨0⟩, 5, []⟩]⟩⟩, ⟨⟨1⟩, .empty⟩]
    allocated := 1
    reclaimer := { eager := false, counts := { retiredIndexes := 4, retiredEntries := 2 } } }
  snapshots := ⟨[("before", ⟨⟨0⟩, ⟨#[⟨⟨0⟩, 5, [1, 2]⟩, ⟨⟨0⟩, 6, [3]⟩]⟩⟩)]⟩

theorem snapshot_isolated_erased :
    Store.init pairConfig = .ok pair ∧ Reaches (start pair []) twoEntries ∧
      (⟨0⟩ : GroupId).slot < twoEntries.store.allocated ∧
      (∃ snap : Snapshot, snap.AgreesWith twoEntries.store ∧ ∀ heap,
        erased.stepWithin heap (.snapGet "before" 6) = (.found (some ⟨⟨0⟩, 6, [3]⟩), erased)) ∧
      erased.store.get ⟨0⟩ 6 = .error (.keyNotFound ⟨0⟩ 6) := by
  have hinit : Store.init pairConfig = .ok pair := rfl
  have hreach : Reaches (start pair []) twoEntries :=
    .request _ _ rfl (.request _ _ rfl (.request _ _ rfl (.refl _)))
  have hallocated : (⟨0⟩ : GroupId).slot < twoEntries.store.allocated := by decide +kernel
  obtain ⟨snap, hgroup, hagrees, hasked, -⟩ :=
    snapshot_isolated hinit [] hreach hallocated .usual
  have hvisit : ((twoEntries.session.stepWithin .usual (.snap ⟨0⟩ "before")).2.stepWithin .usual
      (.remove ⟨0⟩ 6)).2.store.forEach ⟨0⟩ eraser
      ((), ((twoEntries.session.stepWithin .usual (.snap ⟨0⟩ "before")).2.stepWithin .usual
        (.remove ⟨0⟩ 6)).2) = .ok (none, (), erased) := by decide +kernel
  have hcontinues : Session.Continues (fun s r => s.dropsSnapshot "before" r = false)
      (twoEntries.session.stepWithin .usual (.snap ⟨0⟩ "before")).2 erased :=
    .visit ⟨0⟩ (fun e st => .request _ rfl (.refl _)) hvisit (.request _ rfl (.refl _))
  have hgot : twoEntries.store.get snap.group 6 = .ok ⟨⟨0⟩, 6, [3]⟩ := by
    rw [hgroup]
    decide +kernel
  refine ⟨hinit, hreach, hallocated, ⟨snap, hagrees, fun heap => ?_⟩, by decide +kernel⟩
  rw [← hagrees.get_eq_ok.1 hgot]
  exact (hasked "before").2 erased hcontinues (.snapGet "before" 6) rfl heap

end Account

end SnapshotStore
