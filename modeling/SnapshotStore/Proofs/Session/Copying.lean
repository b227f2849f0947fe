import SnapshotStore.Proofs.Session.Representation
import SnapshotStore.Proofs.Store.Cell

namespace SnapshotStore

/-- What a visitor has put, and what it was answered. -/
abbrev CopyLog := List (Entry × Except StoreError PutOutcome)

structure Copying where
  store : Store
  log : CopyLog := []

/-- Puts what it is shown into the group `target`. Whether it stops then, and with what, it decides
by all that it has seen and been answered. -/
def copier {β : Type} (target : GroupId) (choose : CopyLog → Option β) (e : Entry) (st : Copying) :
    Option β × Copying :=
  let (answer, store) := st.store.put target e.key e.payload
  let log := st.log ++ [(e, answer)]
  (choose log, { store, log })

/-- The log is about the first of `es`: up to the one at which `choose` has stopped, or all. -/
structure Covers {β : Type} (choose : CopyLog → Option β) (es : List Entry) (stop : Option β)
    (log : CopyLog) : Prop where
  visited : log.map Prod.fst <+: es
  goesOn : ∀ n, 0 < n → n < log.length → choose (log.take n) = none
  stops : stop.isSome → log ≠ [] ∧ choose log = stop
  ends : stop = none → log.map Prod.fst = es ∧ (log ≠ [] → choose log = none)

namespace Covers

variable {β : Type} {choose : CopyLog → Option β} {es : List Entry}

theorem nil : Covers choose [] none [] where
  visited := List.nil_prefix
  goesOn _ _ hn := absurd hn (Nat.not_lt_zero _)
  stops := nofun
  ends _ := ⟨rfl, fun h => absurd rfl h⟩

variable {r : Entry × Except StoreError PutOutcome}

theorem stopped {b : β} (h : choose [r] = some b) : Covers choose (r.1 :: es) (some b) [r] where
  visited := by
    rw [List.map_cons, List.map_nil, List.cons_prefix_cons]
    exact ⟨rfl, List.nil_prefix⟩
  goesOn n hpos hn := by
    simp only [List.length_singleton] at hn
    omega
  stops _ := ⟨List.cons_ne_nil _ _, h⟩
  ends := nofun

theorem cons {stop : Option β} {log : CopyLog} (hfirst : choose [r] = none)
    (h : Covers (fun log => choose (r :: log)) es stop log) :
    Covers choose (r.1 :: es) stop (r :: log) where
  visited := by
    rw [List.map_cons, List.cons_prefix_cons]
    exact ⟨rfl, h.visited⟩
  goesOn n hpos hn := by
    obtain ⟨n, rfl⟩ := Nat.exists_eq_succ_of_ne_zero (Nat.ne_of_gt hpos)
    rw [List.take_succ_cons]
    cases n with
    | zero => exact hfirst
    | succ n => exact h.goesOn (n + 1) (Nat.succ_pos n) (Nat.lt_of_succ_lt_succ hn)
  stops hstop := ⟨List.cons_ne_nil _ _, (h.stops hstop).2⟩
  ends hstop := by
    obtain ⟨hall, hlast⟩ := h.ends hstop
    refine ⟨by rw [List.map_cons, hall], fun _ => ?_⟩
    by_cases hlog : log = []
    · rw [hlog]
      exact hfirst
    · exact hlast hlog

theorem ne_nil {stop : Option β} {log : CopyLog} (h : Covers choose es stop log) (hes : es ≠ []) :
    log ≠ [] := by
  cases stop with
  | none =>
    rintro rfl
    exact hes (h.ends rfl).1.symm
  | some b => exact (h.stops rfl).1

end Covers

namespace Store

def copyAll (s : Store) (target : GroupId) : List Entry → CopyLog × Store
  | [] => ([], s)
  | e :: es =>
    let (answer, next) := s.put target e.key e.payload
    ((e, answer) :: (next.copyAll target es).1, (next.copyAll target es).2)

theorem map_fst_copyAll (s : Store) (target : GroupId) (es : List Entry) :
    (s.copyAll target es).1.map Prod.fst = es := by
  induction es generalizing s with
  | nil => rfl
  | cons e es ih => rw [copyAll, List.map_cons, ih]

variable {config : Config} {s t u : Store} {target : GroupId} {log : CopyLog}

/-- A visit by a copier comes to copying as many of the entries as it lets itself be shown. -/
theorem visitAll_copier {β : Type} (target : GroupId) (choose : CopyLog → Option β)
    (es : List Entry) (st : Copying) :
    ∃ stop visited, Covers (fun log => choose (st.log ++ log)) es stop
        (st.store.copyAll target visited).1 ∧
      visitAll (copier target choose) es st = (stop, ⟨(st.store.copyAll target visited).2,
        st.log ++ (st.store.copyAll target visited).1⟩) := by
  induction es generalizing st with
  | nil => exact ⟨none, [], .nil, by rw [visitAll, copyAll, List.append_nil]⟩
  | cons e es ih =>
    let r := (e, (st.store.put target e.key e.payload).1)
    have hstep : copier target choose e st = (choose (st.log ++ [r]),
        ⟨(st.store.put target e.key e.payload).2, st.log ++ [r]⟩) := rfl
    cases hchoose : choose (st.log ++ [r]) with
    | some b =>
      refine ⟨some b, [e], Covers.stopped (r := r) hchoose, ?_⟩
      simp only [visitAll, hstep, hchoose]
      rfl
    | none =>
      obtain ⟨stop, visited, hcovers, hvisit⟩ :=
        ih ⟨(st.store.put target e.key e.payload).2, st.log ++ [r]⟩
      simp only [List.append_assoc, List.singleton_append] at hcovers hvisit
      refine ⟨stop, e :: visited, Covers.cons (r := r) hchoose hcovers, ?_⟩
      simp only [visitAll, hstep, hchoose, hvisit, copyAll]
      rfl

/-- `t` is `s` after the entries of the log have been put into the group `target`. -/
structure Copied (s : Store) (target : GroupId) (log : CopyLog) (t : Store) : Prop where
  allocated : t.allocated = s.allocated
  answers : ∀ r ∈ log, r.2 = .ok (.ofReplaced (s.held (target, r.1.key)))
  copies : ∀ r ∈ log, t.held (target, r.1.key) = some ⟨target, r.1.key, r.1.payload⟩
  others : ∀ c, (∀ r ∈ log, c ≠ (target, r.1.key)) → t.held c = s.held c
  retiredIndexes : t.reclaimer.counts.retiredIndexes =
    s.reclaimer.counts.retiredIndexes + .ofNat log.length
  retiredEntries : t.reclaimer.counts.retiredEntries = s.reclaimer.counts.retiredEntries +
    .ofNat (log.countP fun r => (s.held (target, r.1.key)).isSome)

theorem Copied.nil : s.Copied target [] s where
  allocated := rfl
  answers := nofun
  copies := nofun
  others _ _ := rfl
  retiredIndexes := (UInt64.add_zero _).symm
  retiredEntries := (UInt64.add_zero _).symm

theorem Copied.cons {e : Entry}
    (hset : s.Sets (target, e.key) (some ⟨target, e.key, e.payload⟩) t) (h : t.Copied target log u)
    (hnew : ∀ r ∈ log, r.1.key ≠ e.key) :
    s.Copied target ((e, .ok (.ofReplaced (s.held (target, e.key)))) :: log) u := by
  have hheld : ∀ r ∈ log, t.held (target, r.1.key) = s.held (target, r.1.key) := by
    intro r hr
    rw [hset.held, Function.update_of_ne fun heq => hnew r hr (Prod.mk.inj heq).2]
  refine ⟨h.allocated.trans hset.allocated, ?_, ?_, ?_, ?_, ?_⟩
  · intro r hr
    obtain rfl | hr := List.mem_cons.1 hr
    · rfl
    · rw [h.answers r hr, hheld r hr]
  · intro r hr
    obtain rfl | hr := List.mem_cons.1 hr
    · rw [h.others _ fun r hr heq => hnew r hr (Prod.mk.inj heq).2.symm, hset.held,
        Function.update_self]
    · exact h.copies r hr
  · intro c hc
    rw [h.others c fun r hr => hc r (List.mem_cons_of_mem _ hr), hset.held,
      Function.update_of_ne (hc _ List.mem_cons_self)]
  · rw [h.retiredIndexes, hset.reclaimer, List.length_cons, UInt64.ofNat_add,
      UInt64.add_comm (.ofNat _), ← UInt64.add_assoc]
    rfl
  · have hcount : (log.countP fun r => (t.held (target, r.1.key)).isSome) =
        log.countP fun r => (s.held (target, r.1.key)).isSome :=
      List.countP_congr fun r hr => by rw [hheld r hr]
    rw [h.retiredEntries, hset.reclaimer, hcount, List.countP_cons]
    cases (s.held (target, e.key)).isSome with
    | false => rfl
    | true =>
      rw [if_pos rfl, UInt64.ofNat_add, UInt64.add_comm (.ofNat _), ← UInt64.add_assoc]
      rfl

theorem copied_copyAll (hs : s.WellFormed config) (htarget : target.slot < s.allocated)
    {es : List Entry} (hfit : ∀ e ∈ es, e.payload.length ≤ config.maxEntryLen)
    (hroom : ∀ e ∈ es, reserve e.payload.length = .ok ())
    (hkeys : es.Pairwise fun e f => e.key < f.key) :
    s.Copied target (s.copyAll target es).1 (s.copyAll target es).2 ∧
      (s.copyAll target es).2.WellFormed config := by
  induction es generalizing s with
  | nil => exact ⟨.nil, hs⟩
  | cons e es ih =>
    obtain ⟨hlt, hkeys⟩ := List.pairwise_cons.1 hkeys
    obtain ⟨g, -, hg⟩ := hs.exists_group htarget
    obtain ⟨t, hput, hset, ht⟩ := put_sets hs hg e.key
      (hs.config_eq ▸ hfit e List.mem_cons_self) (hroom e List.mem_cons_self)
    obtain ⟨hcopied, hformed⟩ := ih ht (hset.allocated ▸ htarget)
      (fun f hf => hfit f (List.mem_cons_of_mem _ hf))
      (fun f hf => hroom f (List.mem_cons_of_mem _ hf)) hkeys
    have hnew : ∀ r ∈ (t.copyAll target es).1, r.1.key ≠ e.key := by
      intro r hr
      have hmem : r.1 ∈ es := t.map_fst_copyAll target es ▸ List.mem_map_of_mem hr
      exact (UInt64.ne_of_lt (hlt r.1 hmem)).symm
    simp only [copyAll, hput]
    exact ⟨.cons hset hcopied hnew, hformed⟩

theorem copyAll_of_le (htarget : s.allocated ≤ target.slot) (es : List Entry) :
    s.copyAll target es = (es.map fun e => (e, .error (.groupNotFound target)), s) := by
  induction es with
  | nil => rfl
  | cons e es ih => simp only [copyAll, put_of_le htarget, ih, List.map_cons]

theorem Copied.group_eq (h : s.Copied target log t) (hs : s.WellFormed config)
    (ht : t.WellFormed config) {id : GroupId} (hne : id ≠ target) : t.group id = s.group id :=
  group_eq_of_held ht hs h.allocated fun key =>
    h.others (id, key) fun _ _ heq => hne (Prod.mk.inj heq).1

theorem Copied.groups_eq (h : s.Copied target log t) (hs : s.WellFormed config)
    (ht : t.WellFormed config) {g : Group} (hg : s.group target = .ok g)
    (hlog : ∀ r ∈ log, r.1 ∈ g.index.toList) : t.groups = s.groups := by
  refine groups_eq_of_held ht hs ?_
  funext c
  by_cases hc : ∃ r ∈ log, c = (target, r.1.key)
  · obtain ⟨r, hr, rfl⟩ := hc
    have hmem := hlog r hr
    have hid := (hs.entry_group hg hmem).1
    rw [h.copies r hr, held_of_group hg,
      (Index.get?_eq_some_iff (hs.ascending hg)).2 ⟨hmem, rfl⟩, ← hid]
  · exact h.others c fun r hr heq => hc ⟨r, hr, heq⟩

end Store

namespace Account

/-- A visit is about the entries of the moment of the call, whatever its visitor puts where: a
visitor that copies what it is shown to a group that is handed out, be it the group that is visited,
sees and copies these entries up to the one at which it stops. If the group is not handed out then
all that it puts is refused. -/
theorem forEach_copies {config : Config} {store : Store} (hinit : Store.init config = .ok store)
    (arenas : List Arena) {a : Account} (h : Reaches (start store arenas) a) {id : GroupId}
    {g : Group} (hg : a.store.group id = .ok g)
    (hroom : ∀ e ∈ g.index.toList, reserve e.payload.length = .ok ()) (target : GroupId)
    {β : Type} (choose : CopyLog → Option β) :
    ∃ stop log t,
      a.store.forEach id (copier target choose) { store := a.store } = .ok (stop, ⟨t, log⟩) ∧
      Covers choose g.index.toList stop log ∧
      (log.map fun r => r.1.key).Pairwise (· < ·) ∧
      (target.slot < a.store.allocated → a.store.Copied target log t ∧
        (target = id → t.groups = a.store.groups) ∧
        ∀ other ≠ target, t.group other = a.store.group other) ∧
      (a.store.allocated ≤ target.slot → t = a.store ∧
        (∀ r ∈ log, r.2 = .error (.groupNotFound target)) ∧ (g.index.toList ≠ [] → log ≠ [])) := by
  have hs := h.wellFormed (Store.WellFormed.init hinit)
  obtain ⟨stop, visited, hcovers, hvisit⟩ :=
    Store.visitAll_copier target choose g.index.toList ⟨a.store, []⟩
  simp only [List.nil_append] at hcovers hvisit
  have hvisited : visited <+: g.index.toList := by
    have hmap := hcovers.visited
    rwa [Store.map_fst_copyAll] at hmap
  have hkeys := (Index.pairwise_toList (hs.ascending hg)).sublist hvisited.sublist
  have hmap := a.store.map_fst_copyAll target visited
  refine ⟨stop, (a.store.copyAll target visited).1, (a.store.copyAll target visited).2, ?_,
    hcovers, ?_, fun htarget => ?_, fun htarget => ⟨?_, ?_, hcovers.ne_nil⟩⟩
  · simp only [Store.forEach, Store.snapshot_of_group hg, Except.map, hvisit]
  · rw [← hmap, List.pairwise_map] at hkeys
    exact List.pairwise_map.2 hkeys
  · obtain ⟨hcopied, ht⟩ := Store.copied_copyAll hs htarget
      (fun e he => (hs.entry_group hg (hvisited.subset he)).2)
      (fun e he => hroom e (hvisited.subset he)) hkeys
    refine ⟨hcopied, ?_, fun other hne => hcopied.group_eq hs ht hne⟩
    rintro rfl
    refine hcopied.groups_eq hs ht hg fun r hr => hvisited.subset ?_
    exact hmap ▸ List.mem_map_of_mem hr
  · rw [Store.copyAll_of_le htarget]
  · rw [Store.copyAll_of_le htarget]
    intro r hr
    obtain ⟨e, -, rfl⟩ := List.mem_map.1 hr
    rfl

def overlapping : Account :=
  ((((((start pair []).request .usual .allocate).request .usual .allocate).request .usual
    (.put ⟨0⟩ 3 [1])).request .usual (.put ⟨0⟩ 5 [2])).request .usual (.put ⟨0⟩ 9 [])).request
    .usual (.put ⟨1⟩ 5 [7])

def visitedGroup : Group := ⟨⟨0⟩, ⟨#[⟨⟨0⟩, 3, [1]⟩, ⟨⟨0⟩, 5, [2]⟩, ⟨⟨0⟩, 9, []⟩]⟩⟩

def stopAtTwo (log : CopyLog) : Option Nat := if log.length = 2 then some 7 else none

theorem forEach_copies_overlapping :
    Store.init pairConfig = .ok pair ∧ Reaches (start pair []) overlapping ∧
      overlapping.store.group ⟨0⟩ = .ok visitedGroup ∧
      (∀ e ∈ visitedGroup.index.toList, reserve e.payload.length = .ok ()) ∧
      ∃ log t, overlapping.store.forEach ⟨0⟩ (copier ⟨1⟩ stopAtTwo) { store := overlapping.store } =
          .ok (some 7, ⟨t, log⟩) ∧
        log = [(⟨⟨0⟩, 3, [1]⟩, .ok .inserted), (⟨⟨0⟩, 5, [2]⟩, .ok .replaced)] ∧
        overlapping.store.Copied ⟨1⟩ log t ∧ t.group ⟨0⟩ = .ok visitedGroup := by
  have hinit : Store.init pairConfig = .ok pair := rfl
  have hreach : Reaches (start pair []) overlapping :=
    .request _ _ rfl (.request _ _ rfl (.request _ _ rfl (.request _ _ rfl
      (.request _ _ rfl (.request _ _ rfl (.refl _))))))
  have hgroup : overlapping.store.group ⟨0⟩ = .ok visitedGroup := by decide +kernel
  have hroom : ∀ e ∈ visitedGroup.index.toList, reserve e.payload.length = .ok () := by
    decide +kernel
  obtain ⟨stop, log, t, hvisit, -, -, hcopied, -⟩ :=
    forEach_copies hinit [] hreach hgroup hroom ⟨1⟩ stopAtTwo
  obtain ⟨hcopied, -, hothers⟩ := hcopied (by decide +kernel)
  have hrun : (overlapping.store.forEach ⟨0⟩ (copier ⟨1⟩ stopAtTwo)
      { store := overlapping.store }).map (fun r => (r.1, r.2.log)) =
      .ok (some 7, [(⟨⟨0⟩, 3, [1]⟩, .ok .inserted), (⟨⟨0⟩, 5, [2]⟩, .ok .replaced)]) := by
    decide +kernel
  rw [hvisit, Except.map, Except.ok.injEq, Prod.mk.injEq] at hrun
  obtain ⟨rfl, hlog⟩ := hrun
  exact ⟨hinit, hreach, hgroup, hroom, log, t, hvisit, hlog, hcopied,
    (hothers ⟨0⟩ (by decide)).trans hgroup⟩

end Account

end SnapshotStore
