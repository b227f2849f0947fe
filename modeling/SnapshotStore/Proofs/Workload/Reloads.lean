import Mathlib.Order.Interval.Set.Basic
import SnapshotStore.Proofs.Memory.Delivery
import SnapshotStore.Proofs.Workload.Housed

namespace SnapshotStore

variable {plan : Workload}

namespace Workload

def window (plan : Workload) (n : Nat) : Set Nat :=
  Set.Ico (World.arenaBase.toNat + n * plan.slotSize)
    (World.arenaBase.toNat + (n + 1) * plan.slotSize)

theorem notMem_window_of_ne {m n pos : Nat} (hmn : m ≠ n) (hm : pos ∈ plan.window m) :
    pos ∉ plan.window n := by
  rw [window, Set.mem_Ico, Nat.succ_mul] at hm ⊢
  obtain hd | hd := window_disjoint hmn plan.slotSize
  · omega
  · omega

end Workload

namespace World

theorem run_concat (w : World) (schedule : List Actor) (actor : Actor) :
    w.run (schedule ++ [actor]) = (w.run schedule).step actor :=
  List.foldl_concat ..

theorem step_writer_frame (w : World) (n : Nat) :
    (w.step (.writer n)).arena = w.arena ∧ (w.step (.writer n)).readers = w.readers := by
  simp only [World.step]
  cases w.writers[n]? with
  | none => exact ⟨rfl, rfl⟩
  | some wr =>
    obtain ⟨-, -, hreaders, harena, -⟩ := w.stepWriter_frame wr
    exact ⟨harena, hreaders⟩

theorem arena_step_copy {w : World} {n : Nat} {r : Reader} {id : GroupId} {key : Key}
    (hr : w.readers[n]? = some r) (hphase : r.phase = .copy id key) :
    (w.step (.reader n)).arena =
      (w.store.read id key 0 w.plan.payloadLen (.foreign w.arena r.addr)).2.arena := by
  simp only [World.step, hr, World.stepReader, hphase, World.copy, deliver]
  obtain ⟨_ | _, dst⟩ := w.store.read id key 0 w.plan.payloadLen (.foreign w.arena r.addr) <;> rfl

theorem arena_step_list {w : World} {n : Nat} {r : Reader} {id : GroupId}
    (hr : w.readers[n]? = some r) (hphase : r.phase = .list id) :
    (w.step (.reader n)).arena =
      (w.store.listKeys id w.plan.keys.toNat (.foreign w.arena r.addr)).2.arena := by
  simp only [World.step, hr, World.stepReader, hphase, World.list, deliver]
  obtain ⟨_ | _, dst⟩ := w.store.listKeys id w.plan.keys.toNat (.foreign w.arena r.addr) <;> rfl

/-- Before its last step in a schedule, and after the steps `before`, reader `n` was `r`. -/
def Stood (start : World) (schedule : List Actor) (n : Nat) (before : List Actor) (r : Reader) :
    Prop :=
  ∃ between, schedule = before ++ .reader n :: between ∧ .reader n ∉ between ∧
    (start.run before).readers[n]? = some r

theorem Stood.concat {start : World} {schedule before : List Actor} {n : Nat} {r : Reader}
    (h : start.Stood schedule n before r) {actor : Actor} (hne : actor ≠ .reader n) :
    start.Stood (schedule ++ [actor]) n before r := by
  obtain ⟨between, rfl, hnot, hr⟩ := h
  refine ⟨between ++ [actor], by rw [List.append_assoc, List.cons_append], ?_, hr⟩
  rw [List.mem_append, List.mem_singleton, not_or]
  exact ⟨hnot, hne.symm⟩

namespace Housed

variable {start w : World} {r : Reader} {n : Nat}

theorem step_reader_frame (h : w.Housed plan) (hp : plan.Accepted) (n : Nat) :
    ((w.step (.reader n)).arena = w.arena ∨ ∃ bs, bs.length ≤ plan.slotSize ∧
      n * plan.slotSize + plan.slotSize ≤ w.arena.size ∧
      (w.step (.reader n)).arena = w.arena.write (n * plan.slotSize) bs) ∧
    ∀ m, m ≠ n → (w.step (.reader n)).readers[m]? = w.readers[m]? := by
  obtain ⟨-, heq⟩ | ⟨r, answer, hr, hhanded, heq⟩ := h.step_reader_cases hp n
  · rw [heq]
    exact ⟨.inl rfl, fun m _ => rfl⟩
  · have hwindow := h.window_le (List.getElem?_eq_some_iff.1 hr).1
    have hset : ∀ (next : Reader) m, m ≠ n → (w.readers.set n next)[m]? = w.readers[m]? :=
      fun next m hm => List.getElem?_set_ne hm.symm
    rw [heq]
    cases hhanded with
    | nothing => exact ⟨.inl rfl, hset _⟩
    | delivered hnext hphase hlen => exact ⟨.inr ⟨_, hlen, hwindow, rfl⟩, hset _⟩

theorem outside_step_reader (h : w.Housed plan) (hp : plan.Accepted) (n : Nat) :
    (w.step (.reader n)).arena.base = w.arena.base ∧
    (w.step (.reader n)).arena.size = w.arena.size ∧
    ∀ i, arenaBase.toNat + i ∉ plan.window n →
      (w.step (.reader n)).arena.memory[i]? = w.arena.memory[i]? := by
  obtain ⟨heq | ⟨bs, hlen, hwindow, heq⟩, -⟩ := h.step_reader_frame hp n
  · rw [heq]
    exact ⟨rfl, rfl, fun i _ => rfl⟩
  · rw [heq]
    refine ⟨rfl, Arena.size_write, fun i hi => ?_⟩
    rw [Workload.window, Set.mem_Ico, Nat.succ_mul] at hi
    exact Arena.getElem?_write_of_outside (by omega) (by omega)

theorem slice_step_reader (h : w.Housed plan) (hp : plan.Accepted) {m : Nat} (hmn : m ≠ n)
    (hn : n < w.readers.length) {len : Nat} (hlen : len ≤ plan.slotSize) :
    (w.step (.reader m)).arena.slice (n * plan.slotSize) len =
      w.arena.slice (n * plan.slotSize) len := by
  obtain ⟨heq | ⟨bs, hbs, hm, heq⟩, -⟩ := h.step_reader_frame hp m
  · rw [heq]
  · rw [heq]
    have hwindow := h.window_le hn
    refine Arena.slice_write_of_disjoint (by omega) (by omega) ?_
    obtain hd | hd := Workload.window_disjoint hmn plan.slotSize
    · exact .inr (by omega)
    · exact .inl (by omega)

theorem delivered_step_reader (h : w.Housed plan) (hp : plan.Accepted)
    (hr : (w.step (.reader n)).readers[n]? = some r) (hreload : r.phase.isReload = true) :
    ∃ r₀ bs, w.readers[n]? = some r₀ ∧ r₀.phase.Delivered w.store r.phase bs ∧
      bs.length ≤ plan.slotSize ∧
      (w.step (.reader n)).arena.slice (n * plan.slotSize) bs.length = bs := by
  obtain ⟨hnone, heq⟩ | ⟨r₀, answer, hr₀, hhanded, heq⟩ := h.step_reader_cases hp n
  · rw [heq, hnone] at hr
    cases hr
  · have hlt := (List.getElem?_eq_some_iff.1 hr₀).1
    have hwindow := h.window_le hlt
    rw [heq] at hr ⊢
    cases hhanded with
    | nothing hnext hphase =>
      obtain rfl := Option.some.inj ((List.getElem?_set_self hlt).symm.trans hr)
      rw [hphase] at hreload
      cases hreload
    | delivered hnext hphase hlen =>
      obtain rfl := Option.some.inj ((List.getElem?_set_self hlt).symm.trans hr)
      exact ⟨r₀, _, hr₀, hphase, hlen, Arena.slice_write_self _ _ (by omega)⟩

/-- A reader that is about to load again finds in its window what its last step has had delivered
there, whatever others have done since. -/
theorem recalled (h : start.Housed plan) (hp : plan.Accepted)
    (hstart : ∀ r ∈ start.readers, r.phase.isReload = false) (schedule : List Actor)
    (hr : (start.run schedule).readers[n]? = some r) (hreload : r.phase.isReload = true) :
    ∃ before r₀ bs, start.Stood schedule n before r₀ ∧
      r₀.phase.Delivered (start.run before).store r.phase bs ∧ bs.length ≤ plan.slotSize ∧
      (start.run schedule).arena.slice (n * plan.slotSize) bs.length = bs := by
  -- from the last step back: it is the reader's own, or it leaves the reader and its window alone
  induction schedule using List.reverseRecOn generalizing r with
  | nil =>
    have hnot := hstart r (List.mem_of_getElem? hr)
    rw [hreload] at hnot
    cases hnot
  | append_singleton schedule actor ih =>
    have hs := h.run hp schedule
    rw [run_concat] at hr ⊢
    cases actor with
    | writer m =>
      obtain ⟨harena, hreaders⟩ := (start.run schedule).step_writer_frame m
      rw [hreaders] at hr
      rw [harena]
      obtain ⟨before, r₀, bs, hstood, hrest⟩ := ih hr hreload
      exact ⟨before, r₀, bs, hstood.concat nofun, hrest⟩
    | reader m =>
      by_cases hmn : m = n
      · subst hmn
        obtain ⟨r₀, bs, hr₀, hdelivered⟩ := hs.delivered_step_reader hp hr hreload
        exact ⟨schedule, r₀, bs, ⟨[], rfl, List.not_mem_nil, hr₀⟩, hdelivered⟩
      · obtain ⟨-, hreaders⟩ := hs.step_reader_frame hp m
        rw [hreaders n (Ne.symm hmn)] at hr
        obtain ⟨before, r₀, bs, hstood, hdelivered, hlen, hslice⟩ := ih hr hreload
        have hn := (List.getElem?_eq_some_iff.1 hr).1
        refine ⟨before, r₀, bs, hstood.concat fun heq => hmn (Actor.reader.inj heq), hdelivered,
          hlen, ?_⟩
        rw [hs.slice_step_reader hp hmn hn hlen, hslice]

end Housed

/-- What holds of reader `n`, which is `r`: its window is mapped, it writes nowhere else, and
nothing that it has delivered there faults. -/
structure Serves (plan : Workload) (w : World) (n : Nat) (r : Reader) : Prop where
  addr : r.addr.toNat = arenaBase.toNat + n * plan.slotSize
  mapped : ∀ pos ∈ plan.window n, pos < wordSize ∧
    w.arena.base.toNat ≤ pos ∧ pos < w.arena.base.toNat + w.arena.size
  slots : ∀ slot < plan.keys.toNat, ∃ target, Destination.slotAddress r.addr slot = .ok target ∧
    target.toNat = r.addr.toNat + slot * keySize
  outside : ∀ i, w.arena.base.toNat + i ∉ plan.window n →
    (w.step (.reader n)).arena.memory[i]? = w.arena.memory[i]?
  copy : ∀ id key, r.phase = .copy id key →
    w.store.read id key 0 plan.payloadLen (.foreign w.arena r.addr) =
      (.error (.keyNotFound id key), .foreign w.arena r.addr) ∨
    ∃ e, w.store.get id key = .ok e ∧ e.payload.length = plan.payloadLen ∧
      w.store.read id key 0 plan.payloadLen (.foreign w.arena r.addr) =
        (.ok e.payload.length, .foreign (w.step (.reader n)).arena r.addr) ∧
      w.arena.Overwritten r.addr.toNat e.payload (w.step (.reader n)).arena
  list : ∀ id, r.phase = .list id →
    ∃ g, w.store.group id = .ok g ∧ g.index.size ≤ plan.keys.toNat ∧
      w.store.listKeys id plan.keys.toNat (.foreign w.arena r.addr) =
        (.ok g.index.size, .foreign (w.step (.reader n)).arena r.addr) ∧
      w.arena.Overwritten r.addr.toNat (g.index.keys.flatMap Bytes.ofWord)
        (w.step (.reader n)).arena

/-- What reader `n`, which is `r` after a schedule, loads again is what its last step has had
delivered. -/
structure Recalls (start : World) (schedule : List Actor) (n : Nat) (r : Reader) : Prop where
  reload : ∀ id key len, r.phase = .reload id key len →
    ∃ before r₀ e, start.Stood schedule n before r₀ ∧ r₀.phase = .copy id key ∧
      (start.run before).store.get id key = .ok e ∧ len = e.payload.length ∧
      (start.run schedule).arena.load r.addr len = .ok e.payload
  reloadKeys : ∀ id count, r.phase = .reloadKeys id count →
    ∃ before r₀ g, start.Stood schedule n before r₀ ∧ r₀.phase = .list id ∧
      (start.run before).store.group id = .ok g ∧ count = g.index.size ∧
      (start.run schedule).arena.loadKeys r.addr count = .ok g.index.keys

namespace Housed

variable {start w : World} {r : Reader} {n : Nat}

theorem toNat_addr (h : w.Housed plan) (hp : plan.Accepted) (hr : w.readers[n]? = some r) :
    r.addr.toNat = arenaBase.toNat + n * plan.slotSize := by
  have hwindow := h.window_le (List.getElem?_eq_some_iff.1 hr).1
  have hfit := h.fit hp
  rw [h.base] at hfit
  rw [(h.readers n r hr).addr, Arena.toNat_add_ofNat _ _ (by omega)]

theorem serves (h : w.Housed plan) (hp : plan.Accepted) (hr : w.readers[n]? = some r) :
    w.Serves plan n r := by
  have hhoused := h.readers n r hr
  have hwindow := h.window_le (List.getElem?_eq_some_iff.1 hr).1
  have haddr := h.toNat_addr hp hr
  have hbase := congrArg UInt64.toNat h.base
  have hfit := h.fit hp
  refine ⟨haddr, fun pos hpos => ?_, fun slot hslot => ?_, fun i hi => ?_, fun id key hphase => ?_,
    fun id hphase => ?_⟩
  · rw [Workload.window, Set.mem_Ico, Nat.succ_mul] at hpos
    omega
  · have hlist : plan.keys.toNat * keySize ≤ plan.slotSize := Nat.le_max_right ..
    have hle : slot * keySize ≤ plan.keys.toNat * keySize :=
      Nat.mul_le_mul_right _ (Nat.le_of_lt hslot)
    have hlt : r.addr.toNat + slot * keySize < wordSize := by omega
    exact ⟨_, Destination.slotAddress_of_lt hlt, UInt64.toNat_ofNat_of_lt' hlt⟩
  · exact (h.outside_step_reader hp n).2.2 i (hbase ▸ hi)
  · have hid := hhoused.phase id (by rw [hphase]; rfl)
    obtain hget | ⟨e, hget, -, he, hle, hread⟩ :=
      hp.read_window h.holds hfit hwindow hid key
    · exact .inl (Store.read_of_error hget 0 plan.payloadLen _)
    · rw [h.base, ← hhoused.addr] at hread
      have harena : (w.step (.reader n)).arena = w.arena.write (n * plan.slotSize) e.payload := by
        rw [arena_step_copy hr hphase, h.plan_eq, hread]
        rfl
      rw [harena]
      exact .inr ⟨e, hget, he.length, hread, Arena.overwritten_write (by omega) (by omega)⟩
  · have hid := hhoused.phase id (by rw [hphase]; rfl)
    obtain ⟨g, hg, -, -, hsize, hle, hlist⟩ :=
      Workload.listKeys_window h.holds hfit hwindow hid
    have hbytes := length_flatMap_ofWord g.index.keys
    rw [Index.length_keys] at hbytes
    rw [h.base, ← hhoused.addr] at hlist
    have harena : (w.step (.reader n)).arena =
        w.arena.write (n * plan.slotSize) (g.index.keys.flatMap Bytes.ofWord) := by
      rw [arena_step_list hr hphase, h.plan_eq, hlist]
      rfl
    rw [harena]
    exact ⟨g, hg, hsize, hlist, Arena.overwritten_write (by omega) (by omega)⟩

theorem recalls (h : start.Housed plan) (hp : plan.Accepted)
    (hstart : ∀ r ∈ start.readers, r.phase.isReload = false) {schedule : List Actor}
    (hr : (start.run schedule).readers[n]? = some r) : start.Recalls schedule n r := by
  have hs := h.run hp schedule
  have haddr := (hs.readers n r hr).addr
  have hwindow := hs.window_le (List.getElem?_eq_some_iff.1 hr).1
  have hfit := hs.fit hp
  have hrecalled := h.recalled hp hstart schedule hr
  refine ⟨fun id key len hphase => ?_, fun id count hphase => ?_⟩
  · obtain ⟨before, r₀, bs, hstood, hdelivered, hlen, hslice⟩ := hrecalled (by rw [hphase]; rfl)
    generalize hfrom : r₀.phase = origin at hdelivered
    rw [hphase] at hdelivered
    cases hdelivered with
    | @payload _ _ e hget =>
      refine ⟨before, r₀, e, hstood, hfrom, hget, rfl, ?_⟩
      have hload := Arena.load_add (n * plan.slotSize) e.payload.length hfit (by omega)
      rwa [hs.base, ← haddr, hslice] at hload
  · obtain ⟨before, r₀, bs, hstood, hdelivered, hlen, hslice⟩ := hrecalled (by rw [hphase]; rfl)
    generalize hfrom : r₀.phase = origin at hdelivered
    rw [hphase] at hdelivered
    cases hdelivered with
    | @keys _ g hg =>
      refine ⟨before, r₀, g, hstood, hfrom, hg, rfl, ?_⟩
      rw [length_flatMap_ofWord, Index.length_keys] at hlen hslice
      have hwords := words_flatMap_ofWord g.index.keys
      have hload := Arena.loadKeys_add (n * plan.slotSize) g.index.size hfit (by omega)
      rw [Index.length_keys] at hwords
      rwa [hs.base, ← haddr, hslice, hwords] at hload

end Housed

end World

namespace Workload

/-- The windows of the readers do not overlap, each is mapped and takes all that its reader has
delivered, and whatever all others do, a reader loads again what has been delivered to it. -/
theorem run_serves_windows {w : World} (hw : plan.world = .ok w) :
    (∀ m n, m ≠ n → ∀ pos ∈ plan.window m, pos ∉ plan.window n) ∧
    (∀ n < plan.readers, Word.mul n plan.slotSize = .ok (n * plan.slotSize) ∧
      Word.add World.arenaBase.toNat (n * plan.slotSize) =
        .ok (World.arenaBase.toNat + n * plan.slotSize)) ∧
    ∀ schedule : List Actor,
      (∀ n, ((w.run schedule).step (.writer n)).arena = (w.run schedule).arena) ∧
      ∀ n < plan.readers, ∃ r, (w.run schedule).readers[n]? = some r ∧
        (w.run schedule).Serves plan n r ∧ w.Recalls schedule n r := by
  obtain ⟨hp, rfl⟩ := world_eq_ok.1 hw
  have hstart : ∀ r ∈ plan.setup.readers, r.phase.isReload = false := by
    intro r hr
    obtain ⟨n, -, rfl⟩ := List.mem_map.1 hr
    rfl
  refine ⟨fun m n hmn pos => notMem_window_of_ne hmn, fun n hn => ?_,
    fun schedule => ⟨fun n => ?_, fun n hn => ?_⟩⟩
  · have hwindow := window_le hn
    have hfit := hp.fit
    exact ⟨Word.mul_eq_ok.2 ⟨by omega, rfl⟩, Word.add_eq_ok.2 ⟨by omega, rfl⟩⟩
  · exact ((plan.setup.run schedule).step_writer_frame n).1
  · have hs := hp.setup_housed.run hp schedule
    have hr := List.getElem?_eq_getElem (hs.length.symm ▸ hn)
    exact ⟨_, hr, hs.serves hp hr, hp.setup_housed.recalls hp hstart hr⟩

def rivals : Workload :=
  { groups := 1, writersPerGroup := 1, readers := 2, keys := 1, opsPerWriter := 2, removeEvery := 0,
    payloadLen := 20 }

/-- The key is put again, and read by the second reader, before the first one loads it again. -/
def overtaken : List Actor :=
  .writer 0 :: List.replicate 3 (.reader 0) ++ .writer 0 :: List.replicate 3 (.reader 1)

theorem run_serves_windows_overtaken :
    ∃ w r, rivals.world = .ok w ∧ (w.run overtaken).readers[0]? = some r ∧
      (w.run overtaken).Serves rivals 0 r ∧ w.Recalls overtaken 0 r ∧
      r.phase = .reload ⟨0⟩ 0 20 ∧
      (w.run overtaken).arena.load r.addr 20 = .ok (Payload.encode Crc32.checksum 0 0x100000001 20) ∧
      ((w.run overtaken).store.get ⟨0⟩ 0).map Entry.payload =
        .ok (Payload.encode Crc32.checksum 0 0x100000002 20) := by
  have haccepted : rivals.Accepted :=
    ⟨by decide, by decide, by decide, by decide, by decide, by decide, by decide⟩
  have hw : rivals.world = .ok rivals.setup := world_eq_ok.2 ⟨haccepted, rfl⟩
  obtain ⟨-, -, hrun⟩ := run_serves_windows hw
  obtain ⟨-, hreaders⟩ := hrun overtaken
  obtain ⟨r, hr, hserves, hrecalls⟩ := hreaders 0 (by decide)
  have hfirst : (rivals.setup.run overtaken).readers[0]?.map (fun r => (r.phase, r.addr)) =
      some (.reload ⟨0⟩ 0 20, World.arenaBase) := by decide +kernel
  rw [hr] at hfirst
  obtain ⟨hphase, haddr⟩ := Prod.mk.inj (Option.some.inj hfirst)
  refine ⟨_, r, hw, hr, hserves, hrecalls, hphase, ?_, by decide +kernel⟩
  rw [haddr]
  decide +kernel

end Workload

end SnapshotStore
