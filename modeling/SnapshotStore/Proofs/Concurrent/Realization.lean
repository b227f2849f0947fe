import Mathlib.Data.Sum.Basic
import SnapshotStore.Proofs.Concurrent.Custody
import SnapshotStore.Proofs.Concurrent.Sequential
import SnapshotStore.Proofs.Session.Isolation

namespace SnapshotStore

namespace Publication

namespace Machine

variable {m : Machine} {t g : Nat}

theorem run_append (moves moves' : List Move) :
    m.run (moves ++ moves') = (m.run moves).run moves' :=
  List.foldl_append

theorem Custody.run (h : m.Custody) (moves : List Move) : (m.run moves).Custody := by
  induction moves generalizing m with
  | nil => exact h
  | cons move moves ih => exact ih (h.step move)

theorem grows_run (moves : List Move) : m.Grows (m.run moves) := by
  induction moves generalizing m with
  | nil => exact .refl
  | cons move moves ih => exact (grows_step move).trans ih

/-- What a write with nobody in between has done to a machine when its thread is idle again. -/
structure Wrote (m m' : Machine) (t g : Nat) (next : Index) : Prop where
  contents : m'.contents = Function.update m.contents m.fresh next
  current : m'.current = Function.update m.current g m.fresh
  holder : m'.holder = m.holder
  threads : m'.threads = Function.update m.threads t ⟨g, .idle⟩
  pins : m'.pins ⊆ m.pins
  pending : m'.pending = m.pending ++ [(m.current g, m.freshPin :: m.pins)]
  destroyed : m'.destroyed = m.destroyed

theorem run_write {op : Write} {next : Index} {outcome : Outcome}
    (hidle : (m.threads t).phase = .idle) (hg : g < m.groups) (hfree : m.holder g = none)
    (ha : op.apply (m.contents (m.current g)) = (some next, outcome)) :
    m.Wrote (m.run (.write t g op :: List.replicate 8 (.advance t))) t g next := by
  have hholder : Function.update m.holder g none = m.holder := by
    rw [← hfree, Function.update_eq_self]
  constructor <;>
    simp [run, step, advance, become, pin, unpin, enter, record, leave, swap, retire, hidle, hg,
      hfree, ha, hholder, List.replicate]

theorem run_read (hidle : (m.threads t).phase = .idle) (hg : g < m.groups) :
    m.run [.read t g, .advance t, .advance t] =
      { m with
        threads := Function.update m.threads t ⟨g, .holding m.freshPin (m.current g)⟩
        pins := m.freshPin :: m.pins
        freshPin := m.freshPin + 1 } := by
  simp [run, step, advance, become, pin, hidle, hg]

theorem run_drop {p : Pin} {o : Object} (h : m.threads t = ⟨g, .holding p o⟩) :
    m.run [.advance t] =
      { m with
        threads := Function.update m.threads t ⟨g, .idle⟩
        pins := m.pins.filter (· ≠ p) } := by
  simp [run, step, advance, become, unpin, h]

def Shows (m : Machine) (t : Nat) (snap : Snapshot) : Prop :=
  ∃ p o, m.threads t = ⟨snap.group.slot, .holding p o⟩ ∧ m.contents o = snap.index

theorem Shows.of_grows {m' : Machine} {snap : Snapshot} (h : m.Shows t snap) (hc : m.Custody)
    (hgrows : m.Grows m') (ht : m'.threads t = m.threads t) : m'.Shows t snap := by
  obtain ⟨p, o, hthread, hcontents⟩ := h
  have hmem := hc.viewed t o (by rw [hthread]; rfl)
  have hlt := (hc.shelved _ (hc.within t (by simp [hthread]))).lt_fresh o hmem
  exact ⟨p, o, ht.trans hthread, (hgrows.contents o hlt).trans hcontents⟩

/-- Each group of a store has its index in a machine, and what the store has retired is retired
there. -/
structure Mirrors (m : Machine) (s : Store) : Prop where
  groups : m.groups = s.groups.length
  indexes : ∀ n g, s.groups[n]? = some g → m.contents (m.current n) = g.index
  retired : s.reclaimer.counts.retiredIndexes = .ofNat (m.pending.length + m.destroyed.length)

variable {ι : Type}

/-- What is shown to somebody is held by a thread of its own. All other threads are idle, and nobody
else has a guard. -/
structure Seated (m : Machine) (shown : ι → Option Snapshot) (seat : ι → Nat) : Prop where
  shows : ∀ k snap, shown k = some snap → m.Shows (seat k) snap
  apart : ∀ k k', (shown k).isSome → (shown k').isSome → seat k = seat k' → k = k'
  idle : ∀ t, (∀ k, (shown k).isSome → seat k ≠ t) → (m.threads t).phase = .idle
  spare : ∃ n, ∀ t, n ≤ t → (m.threads t).phase = .idle
  guards : ∀ p ∈ m.pins, ∃ t, (m.threads t).phase.guard? = some p
  free : ∀ n, m.holder n = none

/-- A machine between two requests of a user that works alone with a store. -/
structure Realizes (m : Machine) (s : Store) (shown : ι → Option Snapshot) (seat : ι → Nat) :
    Prop where
  custody : m.Custody
  mirrors : m.Mirrors s
  seated : m.Seated shown seat

variable {s : Store} {id : GroupId} {shown : ι → Option Snapshot} {seat : ι → Nat}

namespace Mirrors

theorem lt_groups (h : m.Mirrors s) {g : Group} (hg : s.group id = .ok g) : id.slot < m.groups := by
  rw [h.groups]
  exact (List.getElem?_eq_some_iff.1 (Store.group_eq_ok.1 hg).2).1

theorem contents_of_group (h : m.Mirrors s) {g : Group} (hg : s.group id = .ok g) :
    m.contents (m.current id.slot) = g.index :=
  h.indexes _ _ (Store.group_eq_ok.1 hg).2

theorem publish (h : m.Mirrors s) (hc : m.Custody) {m' : Machine} {next : Index}
    (hgroups : m'.groups = m.groups) (hw : m.Wrote m' t id.slot next) (gaveWay : Bool) :
    m'.Mirrors (s.publish id next gaveWay) := by
  refine ⟨?_, fun n g hg => ?_, ?_⟩
  · rw [hgroups, h.groups, Store.length_publish]
  · rw [hw.contents, hw.current]
    obtain ⟨old, rfl, -, rfl⟩ | ⟨hne, hold⟩ := Store.publish_cases hg
    · rw [Function.update_self, Function.update_self]
    · have hlt : n < m.groups := by
        rw [h.groups]
        exact (List.getElem?_eq_some_iff.1 hold).1
      have hcurrent := (hc.shelved n hlt).lt_fresh _ (hc.shelved n hlt).current_mem
      rw [Function.update_of_ne (Ne.symm hne), Function.update_of_ne (Nat.ne_of_lt hcurrent)]
      exact h.indexes n g hold
  · rw [Store.counts_publish, hw.pending, hw.destroyed, List.length_append, List.length_singleton,
      Nat.add_right_comm, UInt64.ofNat_add, ← h.retired]
    rfl

end Mirrors

theorem idle_update {threads : Nat → Thread} {t' : Nat} (h : (threads t').phase = .idle) :
    (Function.update threads t ⟨g, .idle⟩ t').phase = .idle := by
  by_cases he : t' = t
  · rw [he, Function.update_self]
  · rwa [Function.update_of_ne he]

theorem exists_guard_update {threads : Nat → Thread} {thread : Thread} {p : Pin}
    (h : ∃ t', (threads t').phase.guard? = some p) (ht : (threads t).phase.guard? ≠ some p) :
    ∃ t', (Function.update threads t thread t').phase.guard? = some p := by
  obtain ⟨t', ht'⟩ := h
  have hne : t' ≠ t := by
    rintro rfl
    exact ht ht'
  exact ⟨t', by rwa [Function.update_of_ne hne]⟩

namespace Seated

theorem seat_ne (h : m.Seated shown seat) (ht : (m.threads t).phase = .idle) {k : ι}
    (hk : (shown k).isSome) : seat k ≠ t := by
  rintro rfl
  obtain ⟨snap, hsnap⟩ := Option.isSome_iff_exists.1 hk
  obtain ⟨p, o, hthread, -⟩ := h.shows k snap hsnap
  rw [hthread] at ht
  cases ht

theorem pins_eq_nil (h : m.Seated shown seat) (hnone : ∀ k, shown k = none) : m.pins = [] := by
  refine List.eq_nil_iff_forall_not_mem.2 fun p hp => ?_
  obtain ⟨t, ht⟩ := h.guards p hp
  rw [h.idle t fun k hk => by simp [hnone k] at hk] at ht
  cases ht

/-- A thread that was idle, and is so again, leaves everybody's seat alone. -/
theorem stay (h : m.Seated shown seat) (hc : m.Custody) {m' : Machine} {next : Index}
    (hgrows : m.Grows m') (hidle : (m.threads t).phase = .idle) (hw : m.Wrote m' t g next) :
    m'.Seated shown seat := by
  refine ⟨fun k snap hk => ?_, h.apart, fun t' ht' => ?_, ?_, fun p hp => ?_, hw.holder ▸ h.free⟩
  · refine (h.shows k snap hk).of_grows hc hgrows ?_
    rw [hw.threads, Function.update_of_ne (h.seat_ne hidle (by simp [hk]))]
  · rw [hw.threads]
    exact idle_update (h.idle t' ht')
  · obtain ⟨n, hn⟩ := h.spare
    rw [hw.threads]
    exact ⟨n, fun t' ht' => idle_update (hn t' ht')⟩
  · rw [hw.threads]
    exact exists_guard_update (h.guards p (hw.pins hp)) (by simp [hidle, Phase.guard?])

variable [DecidableEq ι]

theorem sit (h : m.Seated shown seat) {k : ι} (hk : shown k = none)
    (hidle : (m.threads t).phase = .idle) (snap : Snapshot)
    (hsnap : m.contents (m.current snap.group.slot) = snap.index) :
    Seated
      { m with
        threads := Function.update m.threads t
          ⟨snap.group.slot, .holding m.freshPin (m.current snap.group.slot)⟩
        pins := m.freshPin :: m.pins
        freshPin := m.freshPin + 1 }
      (Function.update shown k (some snap)) (Function.update seat k t) := by
  have hold : ∀ k', k' ≠ k → (Function.update shown k (some snap) k').isSome →
      (shown k').isSome := by
    intro k' he hk'
    rwa [Function.update_of_ne he] at hk'
  refine ⟨fun k' snap' hk' => ?_, fun k₁ k₂ h₁ h₂ he => ?_, fun t' ht' => ?_, ?_, fun p hp => ?_,
    h.free⟩
  · by_cases he : k' = k
    · subst he
      rw [Function.update_self] at hk' ⊢
      cases hk'
      exact ⟨_, _, Function.update_self .., hsnap⟩
    · rw [Function.update_of_ne he] at hk' ⊢
      obtain ⟨p, o, hthread, hcontents⟩ := h.shows k' snap' hk'
      refine ⟨p, o, ?_, hcontents⟩
      exact (Function.update_of_ne (h.seat_ne hidle (by simp [hk'])) ..).trans hthread
  · have hapart := h.apart k₁ k₂
    have hne := h.seat_ne hidle (k := k₁)
    have hne' := h.seat_ne hidle (k := k₂)
    grind [Function.update_apply]
  · have hne : t' ≠ t := by
      rintro rfl
      exact ht' k (by simp) (Function.update_self ..)
    refine (congrArg Thread.phase (Function.update_of_ne hne ..)).trans (h.idle t' fun k' hk' => ?_)
    have hk : k' ≠ k := by
      rintro rfl
      simp [hk] at hk'
    have := ht' k' (by rwa [Function.update_of_ne hk])
    rwa [Function.update_of_ne hk] at this
  · obtain ⟨n, hn⟩ := h.spare
    refine ⟨max n (t + 1), fun t' ht' => ?_⟩
    have hne : t' ≠ t := by omega
    exact (congrArg Thread.phase (Function.update_of_ne hne ..)).trans (hn t' (by omega))
  · obtain rfl | hp := List.mem_cons.1 hp
    · exact ⟨t, by simp [Phase.guard?]⟩
    · exact exists_guard_update (h.guards p hp) (by simp [hidle, Phase.guard?])

theorem rise (h : m.Seated shown seat) {k : ι} {p : Pin} {o : Object}
    (hthread : m.threads (seat k) = ⟨g, .holding p o⟩) (hk : (shown k).isSome) :
    Seated
      { m with
        threads := Function.update m.threads (seat k) ⟨g, .idle⟩
        pins := m.pins.filter (· ≠ p) }
      (Function.update shown k none) seat := by
  have hold : ∀ k', (Function.update shown k none k').isSome → k' ≠ k ∧ (shown k').isSome := by
    intro k' hk'
    by_cases he : k' = k
    · subst he
      simp at hk'
    · exact ⟨he, by rwa [Function.update_of_ne he] at hk'⟩
  refine ⟨fun k' snap hk' => ?_, fun k₁ k₂ h₁ h₂ => h.apart k₁ k₂ (hold k₁ h₁).2 (hold k₂ h₂).2,
    fun t' ht' => ?_, ?_, fun q hq => ?_, h.free⟩
  · obtain ⟨hne, hsome⟩ := hold k' (by simp [hk'])
    rw [Function.update_of_ne hne] at hk'
    obtain ⟨q, o', hq, hcontents⟩ := h.shows k' snap hk'
    refine ⟨q, o', ?_, hcontents⟩
    exact (Function.update_of_ne (fun he => hne (h.apart k' k hsome hk he)) ..).trans hq
  · by_cases he : t' = seat k
    · simp [he]
    · refine idle_update (h.idle t' fun k' hk' hseat => ?_)
      by_cases hkk : k' = k
      · exact he (hkk ▸ hseat.symm)
      · exact ht' k' (by rwa [Function.update_of_ne hkk]) hseat
  · obtain ⟨n, hn⟩ := h.spare
    exact ⟨n, fun t' ht' => idle_update (hn t' ht')⟩
  · obtain ⟨hmem, hne⟩ := List.mem_filter.1 hq
    refine exists_guard_update (h.guards q hmem) ?_
    rw [hthread]
    rintro ⟨⟩
    simp at hne

end Seated

namespace Realizes

variable {g : Group}

theorem init {config : Config} (h : Store.init config = .ok s) (seat : ι → Nat) :
    (initial config.maxGroups).Realizes s (fun _ => none) seat := by
  have hs := Store.WellFormed.init h
  obtain ⟨-, rfl⟩ := Store.init_eq_ok.1 h
  refine ⟨initial_custody _, ⟨hs.length.symm, fun n g hg => ?_, rfl⟩,
    ⟨nofun, nofun, fun _ _ => rfl, ⟨0, fun _ _ => rfl⟩, nofun, fun _ => rfl⟩⟩
  rw [hs.unused n g hg (Nat.zero_le n)]
  rfl

theorem alive (h : m.Realizes s shown seat) {k : ι} {snap : Snapshot} (hk : shown k = some snap) :
    ∃ p o, m.threads (seat k) = ⟨snap.group.slot, .holding p o⟩ ∧ m.contents o = snap.index ∧
      o ∉ m.destroyed := by
  obtain ⟨p, o, hthread, hcontents⟩ := h.seated.shows k snap hk
  exact ⟨p, o, hthread, hcontents, h.custody.guarded.alive _ o (by rw [hthread]; rfl)⟩

theorem write (h : m.Realizes s shown seat) (hg : s.group id = .ok g) {op : Write} {next : Index}
    {outcome : Outcome} (ha : op.apply g.index = (some next, outcome)) (gaveWay : Bool) :
    ∃ moves, (m.run moves).Realizes (s.publish id next gaveWay) shown seat := by
  obtain ⟨t, hidle⟩ := h.seated.spare
  have hidle := hidle t (Nat.le_refl t)
  rw [← h.mirrors.contents_of_group hg] at ha
  have hw := run_write hidle (h.mirrors.lt_groups hg) (h.seated.free _) ha
  have hgrows := m.grows_run (.write t id.slot op :: List.replicate 8 (.advance t))
  exact ⟨_, h.custody.run _, h.mirrors.publish h.custody hgrows.groups hw gaveWay,
    h.seated.stay h.custody hgrows hidle hw⟩

theorem transition (h : m.Realizes s shown seat) {s' : Store} {b c : Books}
    (ht : s.Transition b s' c) : ∃ moves, (m.run moves).Realizes s' shown seat := by
  cases ht with
  | unchanged => exact ⟨[], h⟩
  | allocated =>
    exact ⟨[], h.custody, ⟨h.mirrors.groups, h.mirrors.indexes, h.mirrors.retired⟩, h.seated⟩
  | put hg => exact h.write hg (Write.apply_put ..) _
  | removed hg hr => exact h.write hg (Write.apply_remove_of_some hr) _
  | collected =>
    exact ⟨[], h.custody, ⟨h.mirrors.groups, h.mirrors.indexes, h.mirrors.retired⟩, h.seated⟩

variable [DecidableEq ι] {k : ι}

theorem look (h : m.Realizes s shown seat) (hk : shown k = none) (hg : s.group id = .ok g) :
    ∃ moves t, (m.run moves).Realizes s (Function.update shown k (some ⟨id, g.index⟩))
      (Function.update seat k t) := by
  obtain ⟨t, hidle⟩ := h.seated.spare
  have hidle := hidle t (Nat.le_refl t)
  have hrun := run_read hidle (h.mirrors.lt_groups hg)
  have hcustody := h.custody.run [.read t id.slot, .advance t, .advance t]
  have hseated := h.seated.sit hk hidle ⟨id, g.index⟩ (h.mirrors.contents_of_group hg)
  refine ⟨[.read t id.slot, .advance t, .advance t], t, ?_⟩
  rw [hrun] at hcustody ⊢
  exact ⟨hcustody, ⟨h.mirrors.groups, h.mirrors.indexes, h.mirrors.retired⟩, hseated⟩

theorem drop (h : m.Realizes s shown seat) (k : ι) :
    ∃ moves, (m.run moves).Realizes s (Function.update shown k none) seat := by
  cases hk : shown k with
  | none =>
    refine ⟨[], ?_⟩
    rw [← hk, Function.update_eq_self]
    exact h
  | some snap =>
    obtain ⟨p, o, hthread, -⟩ := h.seated.shows k snap hk
    have hcustody := h.custody.run [.advance (seat k)]
    refine ⟨[.advance (seat k)], ?_⟩
    rw [run_drop hthread] at hcustody ⊢
    exact ⟨hcustody, ⟨h.mirrors.groups, h.mirrors.indexes, h.mirrors.retired⟩,
      h.seated.rise hthread (by simp [hk])⟩

omit [DecidableEq ι] in
/-- With nobody to wait for, the collector can destroy all that is retired. -/
theorem exists_settled (h : m.Realizes s shown seat) (hpins : m.pins = []) :
    ∃ moves, (m.run moves).Realizes s shown seat ∧ (m.run moves).pending = [] := by
  induction hp : m.pending generalizing m with
  | nil => exact ⟨[], h, hp⟩
  | cons d rest ih =>
    obtain ⟨o, guards⟩ := d
    have hnot : ∀ d ∈ rest, d.1 ≠ o := by
      have honce := (List.nodup_append.1 h.custody.once).1
      rw [hp, List.map_cons, List.nodup_cons] at honce
      exact fun d hd he => honce.1 (List.mem_map.2 ⟨d, hd, he⟩)
    have hstep : m.step (.collect o) =
        { m with pending := rest, destroyed := o :: m.destroyed } := by
      simpa [step, hp, hpins] using hnot
    have hcustody := h.custody.step (.collect o)
    rw [hstep] at hcustody
    have hretired : s.reclaimer.counts.retiredIndexes =
        .ofNat (rest.length + (o :: m.destroyed).length) := by
      rw [h.mirrors.retired, hp, List.length_cons, List.length_cons, Nat.add_right_comm,
        Nat.add_assoc]
    obtain ⟨moves, hmoves⟩ := ih (m := { m with pending := rest, destroyed := o :: m.destroyed })
      ⟨hcustody, ⟨h.mirrors.groups, h.mirrors.indexes, hretired⟩,
        ⟨h.seated.shows, h.seated.apart, h.seated.idle, h.seated.spare, h.seated.guards,
          h.seated.free⟩⟩ hpins rfl
    exact ⟨.collect o :: moves, by rwa [run, List.foldl_cons, hstep]⟩

end Realizes

end Machine

end Publication

open Publication

theorem Named.get?_bind_eq_update {α : Type} (t : Named α) (name : String) (a : α) :
    (t.bind name a).get? = Function.update t.get? name (some a) := by
  funext other
  by_cases h : other = name
  · rw [h, get?_bind, Function.update_self]
  · rw [get?_bind_of_ne t a h, Function.update_of_ne h]

theorem Named.get?_drop_eq_update {α : Type} (t : Named α) (name : String) :
    (t.drop name).get? = Function.update t.get? name none := by
  funext other
  by_cases h : other = name
  · rw [h, get?_drop, Function.update_self]
  · rw [get?_drop_of_ne t h, Function.update_of_ne h]

namespace Session

/-- What the user of a session has been shown: the snapshots that he keeps under names, and those
that visits under way go through, the outermost first. -/
def shown (s : Session) (visits : List Snapshot) : String ⊕ Nat → Option Snapshot :=
  Sum.elim s.snapshots.get? (visits[·]?)

variable {s : Session} {m : Machine} {visits : List Snapshot} {seat : String ⊕ Nat → Nat}

theorem shown_length (s : Session) (visits : List Snapshot) :
    s.shown visits (.inr visits.length) = none := by
  simp [shown]

theorem shown_concat (s : Session) (visits : List Snapshot) (snap : Snapshot) :
    s.shown (visits ++ [snap]) =
      Function.update (s.shown visits) (.inr visits.length) (some snap) := by
  rw [shown, shown, Sum.update_elim_inr]
  congr 1
  funext n
  rw [List.getElem?_append, Function.update_apply]
  grind

theorem realized_request (h : m.Realizes s.store (s.shown visits) seat) (heap : Heap) (r : Request)
    (hr : r.isVisit = false) : ∃ moves seat',
    (m.run moves).Realizes (s.stepWithin heap r).2.store ((s.stepWithin heap r).2.shown visits)
      seat' := by
  cases hkeeping : r.isKeeping with
  | false =>
    obtain ⟨moves, hmoves⟩ := h.transition (Account.transition ⟨s, {}⟩ heap r hr)
    refine ⟨moves, seat, ?_⟩
    rw [shown, (kept_of_not_isKeeping heap hkeeping).1]
    exact hmoves
  | true =>
    cases r with
    | hold id key name =>
      simp only [stepWithin, step]
      cases s.store.get id key <;> exact ⟨[], seat, h⟩
    | snap id name =>
      simp only [stepWithin, step]
      cases hg : s.store.group id with
      | error e => simpa only [Store.snapshot, hg, Except.map] using ⟨[], seat, h⟩
      | ok g =>
        obtain ⟨moves, hmoves⟩ := h.drop (.inl name)
        obtain ⟨moves', t, hmoves'⟩ := hmoves.look (k := .inl name) (Function.update_self ..) hg
        rw [Function.update_idem, ← Machine.run_append] at hmoves'
        refine ⟨moves ++ moves', Function.update seat (.inl name) t, ?_⟩
        simp only [Store.snapshot_of_group hg]
        rwa [shown, Named.get?_bind_eq_update, ← Sum.update_elim_inl]
    | snapDrop name =>
      obtain ⟨moves, hmoves⟩ := h.drop (.inl name)
      refine ⟨moves, seat, ?_⟩
      simp only [stepWithin, step]
      rwa [shown, Named.get?_drop_eq_update, ← Sum.update_elim_inl]
    | _ => cases hkeeping

end Session

namespace Account

theorem Reaches.realized {a b : Account} (h : Reaches a b) {m : Machine} {visits : List Snapshot}
    {seat : String ⊕ Nat → Nat} (hm : m.Realizes a.store (a.session.shown visits) seat) :
    ∃ moves seat', (m.run moves).Realizes b.store (b.session.shown visits) seat' := by
  induction h generalizing m visits seat with
  | refl => exact ⟨[], seat, hm⟩
  | request heap r hr _ ih =>
    obtain ⟨moves, seat', hmoves⟩ := ih hm
    obtain ⟨moves', seat'', hmoves'⟩ := Session.realized_request hmoves heap r hr
    exact ⟨moves ++ moves', seat'', by rwa [Machine.run_append]⟩
  | remap arenas _ ih => exact ih hm
  | @visit σ β a b c id visitor hvisitor state state' stop hvisit _ hkeeps ih =>
    obtain ⟨moves, seat', hmoves⟩ := ih hm
    obtain ⟨g, hg⟩ := Store.exists_group_of_forEach hvisit
    -- the visit has a snapshot of its own, which is dropped when the visitor has seen all it wants
    obtain ⟨look, t, hlook⟩ := hmoves.look (Session.shown_length _ visits) hg
    rw [← Session.shown_concat] at hlook
    have hvisits : ∃ during seat'', (((m.run moves).run look).run during).Realizes c.store
        (c.session.shown (visits ++ [⟨id, g.index⟩])) seat'' := by
      refine Store.forEach_keeps
        (I := fun st : σ × Account => ∃ during seat'',
          (((m.run moves).run look).run during).Realizes st.2.store
            (st.2.session.shown (visits ++ [⟨id, g.index⟩])) seat'')
        (fun e st ⟨during, seat'', hduring⟩ => ?_) ?_ hvisit
      · obtain ⟨more, seat₃, hmore⟩ := hkeeps e st hduring
        exact ⟨during ++ more, seat₃, by rwa [Machine.run_append]⟩
      · exact ⟨[], _, hlook⟩
    obtain ⟨during, seat'', hduring⟩ := hvisits
    obtain ⟨drop, hdrop⟩ := hduring.drop (.inr visits.length)
    rw [Session.shown_concat, Function.update_idem, ← Session.shown_length _ visits,
      Function.update_eq_self] at hdrop
    refine ⟨moves ++ (look ++ (during ++ drop)), seat'', ?_⟩
    rwa [Machine.run_append, Machine.run_append, Machine.run_append]

/-- However a store that was set up has been used, there are threads that could have done the same
with a machine, and then hold what is kept under names. -/
theorem realized_of_reaches {config : Config} {store : Store}
    (hinit : Store.init config = .ok store) (arenas : List Arena) {a : Account}
    (h : Reaches (start store arenas) a) :
    ∃ moves seat,
      ((initial config.maxGroups).run moves).Realizes a.store (a.session.shown []) seat ∧
      ∀ name snap, a.session.snapshots.get? name = some snap → ∃ p o,
        ((initial config.maxGroups).run moves).threads (seat (.inl name)) =
          ⟨snap.group.slot, .holding p o⟩ ∧
        ((initial config.maxGroups).run moves).contents o = snap.index ∧
        o ∉ ((initial config.maxGroups).run moves).destroyed := by
  have hstart : (start store arenas).session.shown [] = fun _ => none := by
    funext k
    cases k <;> rfl
  have hm := Machine.Realizes.init hinit fun _ : String ⊕ Nat => 0
  rw [← hstart] at hm
  obtain ⟨moves, seat, hmoves⟩ := h.realized hm
  exact ⟨moves, seat, hmoves, fun name snap hsnap => hmoves.alive (k := .inl name) hsnap⟩

/-- When the user has dropped all that he kept, the collector can have destroyed all that writers
have given up, and then the usual collector reports what it has destroyed. -/
theorem settled_of_reaches {config : Config} {store : Store}
    (hinit : Store.init config = .ok store) (arenas : List Arena) {a : Account}
    (h : Reaches (start store arenas) a) (hempty : ∀ name, a.session.snapshots.get? name = none) :
    ∃ moves seat,
      ((initial config.maxGroups).run moves).Realizes a.store (a.session.shown []) seat ∧
      ((initial config.maxGroups).run moves).pending = [] ∧
      (a.store.quiesce .usual false).reclaimer.counts.reclaimedIndexes =
        .ofNat ((initial config.maxGroups).run moves).destroyed.length := by
  obtain ⟨moves, seat, hm, -⟩ := realized_of_reaches hinit arenas h
  have hnone : ∀ k, a.session.shown [] k = none := by
    rintro (name | n)
    · exact hempty name
    · rfl
  obtain ⟨collects, hsettled, hpending⟩ := hm.exists_settled (hm.seated.pins_eq_nil hnone)
  rw [← Machine.run_append] at hsettled hpending
  refine ⟨moves ++ collects, seat, hsettled, hpending, ?_⟩
  have hretired := hsettled.mirrors.retired
  rwa [hpending, List.length_nil, Nat.zero_add] at hretired

end Account

end SnapshotStore
