import SnapshotStore.Proofs.Payload.Codec
import SnapshotStore.Proofs.Store.Holds
import SnapshotStore.Proofs.Workload.Setup

namespace SnapshotStore

namespace Workload

/-- What writers of a group put. -/
structure Allows (plan : Workload) (id : GroupId) (e : Entry) : Prop where
  group : e.group = id
  key_lt : e.key < plan.keys
  length : e.payload.length = plan.payloadLen
  sound : isSound e.key e.payload

variable {plan : Workload}

theorem isSound_encode (key : Key) (seq : UInt64) (len : Nat) :
    isSound key (Payload.encode Crc32.checksum key seq len) := by
  simp only [isSound, Payload.verify_encode]
  rfl

theorem Accepted.allows (hp : plan.Accepted) {key : Key} (hkey : key < plan.keys) (id : GroupId)
    (seq : UInt64) :
    plan.Allows id ⟨id, key, Payload.encode Crc32.checksum key seq plan.payloadLen⟩ :=
  ⟨rfl, hkey, by rw [Payload.length_encode, Nat.max_eq_left hp.overhead_le],
    isSound_encode key seq _⟩

section Window

variable {s : Store} {a : Arena} {off : Nat} {id : GroupId}

theorem Accepted.read_window (hp : plan.Accepted) (hs : s.Holds plan.groups plan.Allows)
    (hfit : a.base.toNat + a.size < wordSize) (hoff : off + plan.slotSize ≤ a.size)
    (hid : id.slot < plan.groups) (key : Key) :
    s.get id key = .error (.keyNotFound id key) ∨ ∃ e, s.get id key = .ok e ∧ e.key = key ∧
      plan.Allows id e ∧ e.payload.length ≤ plan.slotSize ∧
      s.read id key 0 plan.payloadLen (.foreign a (a.base + UInt64.ofNat off)) =
        (.ok e.payload.length,
          .foreign (a.write off e.payload) (a.base + UInt64.ofNat off)) := by
  obtain hget | ⟨e, hget, hkey, he⟩ := hs.get hid key
  · exact .inl hget
  · have hle : e.payload.length ≤ plan.slotSize := he.length ▸ Nat.le_max_left ..
    have hpos : 0 < e.payload.length := by
      rw [he.length]
      exact Nat.lt_of_lt_of_le (by decide) hp.overhead_le
    refine .inr ⟨e, hget, hkey, he, hle, ?_⟩
    rw [← he.length]
    exact Store.read_foreign off hget hpos hfit (by omega)

theorem listKeys_window (hs : s.Holds plan.groups plan.Allows)
    (hfit : a.base.toNat + a.size < wordSize) (hoff : off + plan.slotSize ≤ a.size)
    (hid : id.slot < plan.groups) :
    ∃ g, s.group id = .ok g ∧ g.index.Ascending ∧ (∀ e ∈ g.index.toList, plan.Allows id e) ∧
      g.index.size ≤ plan.keys.toNat ∧ g.index.size * keySize ≤ plan.slotSize ∧
      s.listKeys id plan.keys.toNat (.foreign a (a.base + UInt64.ofNat off)) =
        (.ok g.index.size, .foreign (a.write off (g.index.keys.flatMap Bytes.ofWord))
          (a.base + UInt64.ofNat off)) := by
  obtain ⟨g, hg, hascending, hallowed⟩ := hs.group hid
  have hsize : g.index.size ≤ plan.keys.toNat :=
    Index.size_le hascending fun e he => (hallowed e he).key_lt
  have hslot : plan.keys.toNat * keySize ≤ plan.slotSize := Nat.le_max_right ..
  have hle : g.index.size * keySize ≤ plan.slotSize :=
    Nat.le_trans (Nat.mul_le_mul_right _ hsize) hslot
  refine ⟨g, hg, hascending, hallowed, hsize, hle, ?_⟩
  have hcount := g.index.length_keys
  have htake : g.index.keys.take plan.keys.toNat = g.index.keys :=
    List.take_of_length_le (hcount.symm ▸ hsize)
  have hlist := Store.listKeys_foreign off hg plan.keys.toNat hfit (by omega)
  rwa [htake, hcount] at hlist

end Window

end Workload

namespace Writer

variable {plan : Workload} {wr : Writer} {store : Store}

theorem operate_fst (wr : Writer) (store : Store) (tally : Tally) :
    (wr.operate plan store tally).1 = (wr.draw plan).2 := by
  unfold operate
  dsimp only
  split
  · split <;> rfl
  · split <;> rfl

/-- Whether or not there is memory for its payload, an operation leaves nothing in the store that
is not allowed. -/
theorem operate_holds (hp : plan.Accepted) (hs : store.Holds plan.groups plan.Allows)
    (hid : wr.group.slot < plan.groups) (tally : Tally) :
    (wr.operate plan store tally).2.1.Holds plan.groups plan.Allows := by
  have hkey : (wr.draw plan).1 < plan.keys := UInt64.mod_lt _ hp.keys_pos
  cases hnext : wr.removesNext plan with
  | false =>
    obtain ⟨e, hput⟩ | ⟨g, hg, hput⟩ :=
      store.put_cases wr.group (wr.draw plan).1 (wr.payload plan (wr.draw plan).1)
    · simp only [operate, hnext, hput, Bool.false_eq_true, ↓reduceIte]
      exact hs
    · simp only [operate, hnext, hput, Bool.false_eq_true, ↓reduceIte]
      exact hs.put _ hg (hp.allows hkey wr.group _)
  | true =>
    obtain ⟨g, hg, -⟩ := hs.group hid
    cases hr : g.index.remove (wr.draw plan).1 with
    | none =>
      simp only [operate, hnext, Store.remove_of_none hg hr, ↓reduceIte]
      exact hs
    | some removed =>
      simp only [operate, hnext, Store.remove_of_some hg hr, ↓reduceIte]
      exact hs.remove _ hg hr

end Writer

def ReaderPhase.group? : ReaderPhase → Option GroupId
  | .poll | .gone => none
  | .lookup id | .copy id _ | .reload id _ _ | .list id | .reloadKeys id _ | .scan id => some id

def ReaderPhase.isReload : ReaderPhase → Bool
  | .reload _ _ _ | .reloadKeys _ _ => true
  | _ => false

/-- What the store delivers to a reader that goes from one phase to another. -/
inductive ReaderPhase.Delivered (s : Store) : ReaderPhase → ReaderPhase → Bytes → Prop
  | payload {id : GroupId} {key : Key} {e : Entry} (hget : s.get id key = .ok e) :
    Delivered s (.copy id key) (.reload id key e.payload.length) e.payload
  | keys {id : GroupId} {g : Group} (hg : s.group id = .ok g) :
    Delivered s (.list id) (.reloadKeys id g.index.size) (g.index.keys.flatMap Bytes.ofWord)

/-- The window of a reader begins `off` bytes into the memory, and its groups are there. -/
structure Reader.Housed (plan : Workload) (off : Nat) (r : Reader) : Prop where
  addr : r.addr = World.arenaBase + UInt64.ofNat off
  rest : ∀ id ∈ r.rest, id.slot < plan.groups
  phase : ∀ id ∈ r.phase.group?, id.slot < plan.groups

variable {plan : Workload} {off : Nat}

theorem Reader.Housed.advance {r : Reader} (haddr : r.addr = World.arenaBase + UInt64.ofNat off)
    (hrest : ∀ id ∈ r.rest, id.slot < plan.groups) :
    r.advance.Housed plan off ∧ r.advance.phase.isReload = false := by
  unfold Reader.advance
  split
  · next id rest heq =>
    rw [heq] at hrest
    refine ⟨⟨haddr, fun id' hid' => hrest id' (List.mem_cons_of_mem _ hid'), ?_⟩, rfl⟩
    rintro id' ⟨⟩
    exact hrest id List.mem_cons_self
  · next heq =>
    cases r.last
    · exact ⟨⟨haddr, hrest, nofun⟩, rfl⟩
    · exact ⟨⟨haddr, hrest, nofun⟩, rfl⟩

theorem Reader.Housed.become {r next : Reader} (h : r.Housed plan off) (haddr : next.addr = r.addr)
    (hrest : next.rest = r.rest) (hgroup : next.phase.group? = r.phase.group?) :
    next.Housed plan off :=
  ⟨haddr.trans h.addr, hrest ▸ h.rest, hgroup ▸ h.phase⟩

namespace World

/-- Whatever the writers find, the store holds what is allowed, and each reader has its window. -/
structure Housed (plan : Workload) (w : World) : Prop where
  plan_eq : w.plan = plan
  holds : w.store.Holds plan.groups plan.Allows
  base : w.arena.base = arenaBase
  size : w.arena.size = plan.slotSize * max plan.readers 1
  writers : ∀ wr ∈ w.writers, wr.group.slot < plan.groups
  length : w.readers.length = plan.readers
  readers : ∀ (n : Nat) (r : Reader), w.readers[n]? = some r → r.Housed plan (n * plan.slotSize)

/-- A step of a reader leaves the memory alone, or something is delivered to the window of the
reader, which then loads it again. -/
inductive Handed (plan : Workload) (w : World) (off : Nat) (r : Reader) : Reader × World → Prop
  | nothing {next : Reader} {tally : Tally} (hnext : next.Housed plan off)
      (hphase : next.phase.isReload = false) : Handed plan w off r (next, { w with tally })
  | delivered {next : Reader} {tally : Tally} {bs : Bytes} (hnext : next.Housed plan off)
      (hphase : r.phase.Delivered w.store next.phase bs) (hlen : bs.length ≤ plan.slotSize) :
      Handed plan w off r (next, { w with tally, arena := w.arena.write off bs })

theorem stepWriter_frame (w : World) (wr : Writer) :
    (w.stepWriter wr).2.plan = w.plan ∧ (w.stepWriter wr).2.writers = w.writers ∧
      (w.stepWriter wr).2.readers = w.readers ∧ (w.stepWriter wr).2.arena = w.arena ∧
      (w.stepWriter wr).1.group = wr.group := by
  unfold World.stepWriter
  cases wr.phase with
  | working =>
    dsimp only
    split
    · refine ⟨rfl, rfl, rfl, rfl, ?_⟩
      rw [Writer.operate_fst]
      rfl
    · exact ⟨rfl, rfl, rfl, rfl, rfl⟩
  | announcing => exact ⟨rfl, rfl, rfl, rfl, rfl⟩
  | gone => exact ⟨rfl, rfl, rfl, rfl, rfl⟩

namespace Housed

variable {w : World} {r : Reader} {id : GroupId}

theorem fit (h : w.Housed plan) (hp : plan.Accepted) :
    w.arena.base.toNat + w.arena.size < wordSize := by
  rw [h.base, h.size]
  exact hp.fit

theorem window_le {n : Nat} (h : w.Housed plan) (hn : n < w.readers.length) :
    n * plan.slotSize + plan.slotSize ≤ w.arena.size := by
  rw [h.size]
  exact Workload.window_le (h.length ▸ hn)

theorem copy (h : w.Housed plan) (hp : plan.Accepted) (hr : r.Housed plan off) {key : Key}
    (hphase : r.phase = .copy id key) (hoff : off + plan.slotSize ≤ w.arena.size) :
    w.Handed plan off r (w.copy r id key) := by
  have hgroup : r.phase.group? = some id := by rw [hphase]; rfl
  obtain hget | ⟨e, hget, -, -, hle, hread⟩ :=
    hp.read_window h.holds (h.fit hp) hoff (hr.phase id hgroup) key
  · have hread := Store.read_of_error hget 0 w.plan.payloadLen (.foreign w.arena r.addr)
    simp only [World.copy, deliver, hread]
    exact .nothing (hr.become rfl rfl hgroup.symm) rfl
  · rw [h.base, ← hr.addr, ← h.plan_eq] at hread
    simp only [World.copy, deliver, hread]
    refine .delivered (hr.become rfl rfl hgroup.symm) ?_ hle
    rw [hphase]
    exact .payload hget

theorem list (h : w.Housed plan) (hp : plan.Accepted) (hr : r.Housed plan off)
    (hphase : r.phase = .list id) (hoff : off + plan.slotSize ≤ w.arena.size) :
    w.Handed plan off r (w.list r id) := by
  have hgroup : r.phase.group? = some id := by rw [hphase]; rfl
  obtain ⟨g, hg, -, -, -, hle, hlist⟩ :=
    Workload.listKeys_window h.holds (h.fit hp) hoff (hr.phase id hgroup)
  rw [h.base, ← hr.addr, ← h.plan_eq] at hlist
  simp only [World.list, deliver, hlist]
  refine .delivered (hr.become rfl rfl hgroup.symm) ?_ ?_
  · rw [hphase]
    exact .keys hg
  · rwa [length_flatMap_ofWord, Index.length_keys]

theorem stepReader (h : w.Housed plan) (hp : plan.Accepted) (hr : r.Housed plan off)
    (hoff : off + plan.slotSize ≤ w.arena.size) : w.Handed plan off r (w.stepReader r) := by
  unfold World.stepReader
  cases hphase : r.phase with
  | poll =>
    have hrest : ∀ id ∈ w.groups, id.slot < plan.groups := fun id hid => by
      obtain ⟨n, hn, rfl⟩ := List.mem_map.1 hid
      have hlt := List.mem_range.1 hn
      have hgroups : plan.groups ≤ 4 := hp.groups_le
      rw [h.plan_eq] at hlt
      rwa [GroupId.slot_ofSlot (by omega)]
    obtain ⟨hnext, hquiet⟩ :=
      Reader.Housed.advance (r := { r with last := w.done, rest := w.groups }) hr.addr hrest
    exact .nothing hnext hquiet
  | lookup id => exact .nothing (hr.become rfl rfl (by rw [hphase]; rfl)) rfl
  | copy id key => exact h.copy hp hr hphase hoff
  | reload id key len => exact .nothing (hr.become rfl rfl (by rw [hphase]; rfl)) rfl
  | list id => exact h.list hp hr hphase hoff
  | reloadKeys id count => exact .nothing (hr.become rfl rfl (by rw [hphase]; rfl)) rfl
  | scan id =>
    obtain ⟨hnext, hquiet⟩ := Reader.Housed.advance hr.addr hr.rest
    exact .nothing hnext hquiet
  | gone => exact .nothing hr (by rw [hphase]; rfl)

theorem set_reader (h : w.Housed plan) {n : Nat} {next : Reader} {tally : Tally} {arena : Arena}
    (hnext : next.Housed plan (n * plan.slotSize)) (hbase : arena.base = w.arena.base)
    (hsize : arena.size = w.arena.size) :
    Housed plan { w with tally, arena, readers := w.readers.set n next } where
  plan_eq := h.plan_eq
  holds := h.holds
  base := hbase.trans h.base
  size := hsize.trans h.size
  writers := h.writers
  length := List.length_set.trans h.length
  readers m r hr := by
    rw [List.getElem?_set] at hr
    by_cases hmn : n = m
    · subst hmn
      rw [if_pos rfl] at hr
      obtain ⟨-, hr⟩ := Option.ite_none_right_eq_some.1 hr
      cases hr
      exact hnext
    · rw [if_neg hmn] at hr
      exact h.readers m r hr

/-- All that a step of reader `n` can do. -/
theorem step_reader_cases (h : w.Housed plan) (hp : plan.Accepted) (n : Nat) :
    (w.readers[n]? = none ∧ w.step (.reader n) = w) ∨
    ∃ r answer, w.readers[n]? = some r ∧ w.Handed plan (n * plan.slotSize) r answer ∧
      w.step (.reader n) = { answer.2 with readers := answer.2.readers.set n answer.1 } := by
  cases hr : w.readers[n]? with
  | none => exact .inl ⟨rfl, by simp only [World.step, hr]⟩
  | some r =>
    have hwindow := h.window_le (List.getElem?_eq_some_iff.1 hr).1
    refine .inr ⟨r, w.stepReader r, rfl, h.stepReader hp (h.readers n r hr) hwindow, ?_⟩
    simp only [World.step, hr]

theorem step_reader (h : w.Housed plan) (hp : plan.Accepted) (n : Nat) :
    (w.step (.reader n)).Housed plan := by
  obtain ⟨-, heq⟩ | ⟨r, answer, -, hhanded, heq⟩ := h.step_reader_cases hp n
  · rwa [heq]
  · rw [heq]
    cases hhanded with
    | nothing hnext => exact h.set_reader hnext rfl rfl
    | delivered hnext => exact h.set_reader hnext rfl Arena.size_write

theorem stepWriter (h : w.Housed plan) (hp : plan.Accepted) {wr : Writer}
    (hid : wr.group.slot < plan.groups) :
    (w.stepWriter wr).2.store.Holds plan.groups plan.Allows := by
  unfold World.stepWriter
  cases wr.phase with
  | working =>
    dsimp only
    split
    · rw [h.plan_eq]
      exact Writer.operate_holds hp h.holds hid w.tally
    · exact h.holds
  | announcing => exact h.holds
  | gone => exact h.holds

theorem step_writer (h : w.Housed plan) (hp : plan.Accepted) (n : Nat) :
    (w.step (.writer n)).Housed plan := by
  simp only [World.step]
  cases hwr : w.writers[n]? with
  | none => exact h
  | some wr =>
    have hid := h.writers wr (List.mem_of_getElem? hwr)
    obtain ⟨hplan, hwriters, hreaders, harena, hgroup⟩ := w.stepWriter_frame wr
    have hholds := h.stepWriter hp hid
    refine ⟨hplan.trans h.plan_eq, hholds, ?_, ?_, fun wr' hwr' => ?_, ?_, ?_⟩
    · exact (congrArg Arena.base harena).trans h.base
    · exact (congrArg Arena.size harena).trans h.size
    · obtain hmem | rfl := List.mem_or_eq_of_mem_set hwr'
      · exact h.writers wr' (hwriters ▸ hmem)
      · exact hgroup ▸ hid
    · exact (congrArg List.length hreaders).trans h.length
    · exact hreaders ▸ h.readers

theorem step (h : w.Housed plan) (hp : plan.Accepted) (actor : Actor) :
    (w.step actor).Housed plan := by
  cases actor with
  | writer n => exact h.step_writer hp n
  | reader n => exact h.step_reader hp n

theorem run (h : w.Housed plan) (hp : plan.Accepted) (schedule : List Actor) :
    (w.run schedule).Housed plan := by
  induction schedule generalizing w with
  | nil => exact h
  | cons actor schedule ih => exact ih (h.step hp actor)

end Housed

end World

namespace Workload

theorem Accepted.setup_housed (hp : plan.Accepted) : plan.setup.Housed plan where
  plan_eq := rfl
  holds := by
    have hgroups : ∀ (n : Nat) (g : Group), plan.setup.store.groups[n]? = some g →
        g.index = .empty := by
      intro n g hg
      rw [store_setup] at hg
      obtain ⟨m, -, rfl⟩ := List.mem_map.1 (List.mem_of_getElem? hg)
      rfl
    refine ⟨by simp [store_setup], by simp [store_setup], fun n g hg => ?_, fun n g hg => ?_⟩
    · rw [hgroups n g hg]
      exact Index.ascending_empty
    · rw [hgroups n g hg]
      simp [Index.toList, Index.empty]
  base := rfl
  size := by
    have hlt : plan.slotSize * max plan.readers 1 < 2 ^ 64 :=
      Nat.lt_of_le_of_lt hp.arena_le (by decide)
    have hsize : (Arena.zeroed World.arenaBase
        (UInt64.ofNat (plan.slotSize * max plan.readers 1))).size =
        (UInt64.ofNat (plan.slotSize * max plan.readers 1)).toNat := Array.size_replicate
    exact hsize.trans (UInt64.toNat_ofNat_of_lt' hlt)
  writers wr hwr := by
    obtain ⟨n, hn, rfl⟩ := List.mem_map.1 hwr
    have hlt : n / plan.writersPerGroup < plan.groups := by
      refine Nat.div_lt_of_lt_mul ?_
      rw [Nat.mul_comm]
      exact List.mem_range.1 hn
    have hgroups : plan.groups ≤ 4 := hp.groups_le
    simp only [Writer.start]
    rwa [GroupId.slot_ofSlot (by omega)]
  length := by simp [setup, World.initial]
  readers n r hr := by
    simp only [setup, World.initial, List.getElem?_map, Option.map_eq_some_iff] at hr
    obtain ⟨m, hm, rfl⟩ := hr
    obtain ⟨-, rfl⟩ := List.getElem?_eq_some_iff.1 hm
    rw [List.getElem_range]
    exact ⟨rfl, fun id hid => absurd hid List.not_mem_nil,
      fun id hid => absurd hid (Option.not_mem_none id)⟩

end Workload

end SnapshotStore
