import SnapshotStore.Proofs.Workload.Housed

namespace SnapshotStore

namespace Tally

@[simp] theorem expect_true (t : Tally) : t.expect true = t := rfl

end Tally

namespace Writer

variable {plan : Workload} {wr : Writer} {store : Store}

/-- What one operation of a writer does when nothing is violated. -/
inductive Operated (plan : Workload) (wr : Writer) (store : Store) (tally : Tally) :
    Writer × Store × Tally → Prop
  | put (g : Group) (e : Entry) (hnext : wr.removesNext plan = false)
      (hg : store.group wr.group = .ok g) (he : plan.Allows wr.group e)
      (hkey : e.key = (wr.draw plan).1) :
      Operated plan wr store tally ((wr.draw plan).2,
        store.publish wr.group (g.index.upsert e).1 (g.index.upsert e).2.isSome, tally.put)
  | missed (g : Group) (hnext : wr.removesNext plan = true) (hg : store.group wr.group = .ok g)
      (hr : g.index.remove (wr.draw plan).1 = none) :
      Operated plan wr store tally ((wr.draw plan).2, store, tally)
  | removed (g : Group) (next : Index) (e : Entry)
      (hnext : wr.removesNext plan = true) (hg : store.group wr.group = .ok g)
      (hr : g.index.remove (wr.draw plan).1 = some (next, e)) :
      Operated plan wr store tally ((wr.draw plan).2,
        store.publish wr.group next true, tally.remove)

theorem operate_spec (tally : Tally) (hp : plan.Feasible) (hs : store.Holds plan.groups plan.Allows)
    (hmax : plan.payloadLen ≤ store.config.maxEntryLen) (hid : wr.group.slot < plan.groups) :
    Operated plan wr store tally (wr.operate plan store tally) := by
  obtain ⟨g, hg, hascending, hallowed⟩ := hs.group hid
  have hkey : (wr.draw plan).1 < plan.keys := UInt64.mod_lt _ hp.keys_pos
  cases hnext : wr.removesNext plan with
  | false =>
    have hallows := hp.allows hkey wr.group ((wr.seed <<< 32) ||| (wr.issued + 1))
    have hlen : (wr.payload plan (wr.draw plan).1).length = plan.payloadLen := hallows.length
    have hput : store.put wr.group (wr.draw plan).1 (wr.payload plan (wr.draw plan).1) = _ :=
      Store.put_of_group hg (hlen ▸ hmax) (hlen.symm ▸ hp.room)
    simp only [operate, hnext, hput, Bool.false_eq_true, ↓reduceIte]
    exact .put g _ hnext hg hallows rfl
  | true =>
    cases hr : g.index.remove (wr.draw plan).1 with
    | none =>
      have hremove := Store.remove_of_none hg hr
      simp only [operate, hnext, hremove, ↓reduceIte]
      exact .missed g hnext hg hr
    | some removed =>
      obtain ⟨next, e⟩ := removed
      have hremove := Store.remove_of_some hg hr
      obtain ⟨hmem, hk⟩ := (Index.get?_eq_some_iff hascending).1 (Index.get?_of_remove hascending hr)
      have hsound : isSound (wr.draw plan).1 e.payload = true := hk ▸ (hallowed e hmem).sound
      simp only [operate, hnext, hremove, hsound, ↓reduceIte, Tally.expect_true]
      exact .removed g next e hnext hg hr

end Writer

variable {plan : Workload} {a : Arena} {off : Nat}

/-- What a reader relies on before its next step: its group is there, and what it is about to load
again from its window is sound. -/
def ReaderPhase.Ready (plan : Workload) (a : Arena) (off : Nat) : ReaderPhase → Prop
  | .poll | .gone => True
  | .lookup id | .copy id _ | .list id | .scan id => id.slot < plan.groups
  | .reload id key len =>
    id.slot < plan.groups ∧ len ≤ plan.slotSize ∧ isSound key (a.slice off len)
  | .reloadKeys id count =>
    id.slot < plan.groups ∧ count * keySize ≤ plan.slotSize ∧
      Index.strictlyAscending (Bytes.words count (a.slice off (count * keySize))) ∧
      ∀ k ∈ Bytes.words count (a.slice off (count * keySize)), k < plan.keys

structure Reader.Ready (plan : Workload) (a : Arena) (off : Nat) (r : Reader) : Prop where
  addr : r.addr = a.base + UInt64.ofNat off
  rest : ∀ id ∈ r.rest, id.slot < plan.groups
  phase : r.phase.Ready plan a off

theorem Reader.Ready.write {r : Reader} (h : r.Ready plan a off) {other : Nat} {bs : Bytes}
    (hoff : off + plan.slotSize ≤ a.size) (hlen : other + bs.length ≤ a.size)
    (hd : off + plan.slotSize ≤ other ∨ other + bs.length ≤ off) :
    r.Ready plan (a.write other bs) off := by
  have hslice : ∀ len ≤ plan.slotSize, (a.write other bs).slice off len = a.slice off len :=
    fun len hle => Arena.slice_write_of_disjoint hlen (by omega) (by omega)
  refine ⟨h.addr, h.rest, ?_⟩
  have hphase := h.phase
  cases hr : r.phase with
  | reload id key len =>
    rw [hr] at hphase
    obtain ⟨hid, hle, hsound⟩ := hphase
    exact ⟨hid, hle, by rwa [hslice len hle]⟩
  | reloadKeys id count =>
    rw [hr] at hphase
    obtain ⟨hid, hle, hkeys⟩ := hphase
    exact ⟨hid, hle, by rwa [hslice _ hle]⟩
  | _ =>
    rw [hr] at hphase
    exact hphase

theorem Reader.Ready.advance {r : Reader} (haddr : r.addr = a.base + UInt64.ofNat off)
    (hrest : ∀ id ∈ r.rest, id.slot < plan.groups) : r.advance.Ready plan a off := by
  unfold Reader.advance
  split
  · next id rest heq =>
    rw [heq] at hrest
    exact ⟨haddr, fun id' hid' => hrest id' (List.mem_cons_of_mem _ hid'),
      hrest id List.mem_cons_self⟩
  · next heq =>
    refine ⟨haddr, hrest, ?_⟩
    dsimp only
    split <;> trivial

/-- A scan of allowed entries in ascending order finds no flaw. -/
theorem Reader.visitAll_inspect {id : GroupId} (es : List Entry) (previous : Option Key)
    (hallowed : ∀ e ∈ es, plan.Allows id e) (hascending : es.Pairwise fun e f => e.key < f.key)
    (hprevious : ∀ p ∈ previous, ∀ e ∈ es, p < e.key) :
    ∃ last, Store.visitAll (Reader.inspect id) es previous = (none, last) := by
  induction es generalizing previous with
  | nil => exact ⟨previous, rfl⟩
  | cons e es ih =>
    obtain ⟨hbelow, hrest⟩ := List.pairwise_cons.1 hascending
    have he := hallowed e List.mem_cons_self
    have horder : previous.filter (fun p => e.key ≤ p) = none := by
      refine Option.filter_eq_none_iff.2 fun p hp => ?_
      simpa using hprevious p hp e List.mem_cons_self
    have hinspect : Reader.inspect id e previous = (none, some e.key) := by
      have hsound := he.sound
      simp only [isSound] at hsound
      cases hv : Payload.verify Crc32.checksum e.key e.payload with
      | error defect => simp [hv, Except.isOk, Except.toBool] at hsound
      | ok seq => simp [Reader.inspect, horder, he.group, hv]
    obtain ⟨last, hlast⟩ := ih (some e.key) (fun f hf => hallowed f (List.mem_cons_of_mem _ hf))
      hrest fun p hp f hf => by
        cases hp
        exact hbelow f hf
    refine ⟨last, ?_⟩
    rw [Store.visitAll, hinspect]
    exact hlast

namespace World

/-- Everything that the threads find is what they expect. -/
structure Sound (plan : Workload) (w : World) : Prop where
  plan_eq : w.plan = plan
  holds : w.store.Holds plan.groups plan.Allows
  maxEntryLen : plan.payloadLen ≤ w.store.config.maxEntryLen
  base : w.arena.base = arenaBase
  size : w.arena.size = plan.slotSize * max plan.readers 1
  writers : ∀ wr ∈ w.writers, wr.group.slot < plan.groups
  readers : ∀ (n : Nat) (r : Reader), w.readers[n]? = some r →
    n < plan.readers ∧ r.Ready plan w.arena (n * plan.slotSize)
  clean : w.tally.violations = 0

/-- A step of a reader that finds what it expects changes nothing outside its window. -/
def Harmless (plan : Workload) (w : World) (off : Nat) (next : Reader × World) : Prop :=
  ∃ tally bs, next.2 = { w with tally := tally, arena := w.arena.write off bs } ∧
    bs.length ≤ plan.slotSize ∧ tally.violations = 0 ∧
    tally.puts = w.tally.puts ∧ tally.removes = w.tally.removes ∧
    next.1.Ready plan (w.arena.write off bs) off

namespace Sound

variable {w : World} {r : Reader} {id : GroupId}

theorem fit (h : w.Sound plan) (hp : plan.Feasible) :
    w.arena.base.toNat + w.arena.size < wordSize := by
  rw [h.base, h.size]
  exact hp.fit

theorem harmless_of_tally {next : Reader} {tally : Tally} (hready : next.Ready plan w.arena off)
    (hclean : tally.violations = 0) (hputs : tally.puts = w.tally.puts)
    (hremoves : tally.removes = w.tally.removes) :
    w.Harmless plan off (next, { w with tally }) :=
  ⟨tally, [], rfl, Nat.zero_le _, hclean, hputs, hremoves, hready⟩

theorem lookup (h : w.Sound plan) (hr : r.Ready plan w.arena off) (hid : id.slot < plan.groups) :
    w.Harmless plan off (w.lookup r id) := by
  have hready (key : Key) (rng : Xorshift) :
      Reader.Ready plan w.arena off { r with rng, phase := .copy id key } :=
    ⟨hr.addr, hr.rest, hid⟩
  obtain hget | ⟨e, hget, hkey, he⟩ := h.holds.get hid (r.rng.draw.1 % w.plan.keys)
  · simp only [World.lookup, hget]
    exact harmless_of_tally (hready _ _) h.clean rfl rfl
  · have hsound : isSound (r.rng.draw.1 % w.plan.keys) e.payload = true := hkey ▸ he.sound
    simp only [World.lookup, hget, hsound]
    exact harmless_of_tally (hready _ _) h.clean rfl rfl

theorem copy (h : w.Sound plan) (hp : plan.Feasible) (hr : r.Ready plan w.arena off)
    (hid : id.slot < plan.groups) (hoff : off + plan.slotSize ≤ w.arena.size) (key : Key) :
    w.Harmless plan off (w.copy r id key) := by
  obtain hget | ⟨e, hget, hkey, he, hle, hread⟩ :=
    hp.read_window h.holds (h.fit hp) hoff hid key
  · have hread := Store.read_of_error hget 0 w.plan.payloadLen (.foreign w.arena r.addr)
    simp only [World.copy, deliver, hread]
    exact harmless_of_tally ⟨hr.addr, hr.rest, hid⟩ h.clean rfl rfl
  · rw [← hr.addr, ← h.plan_eq] at hread
    simp only [World.copy, deliver, hread]
    refine ⟨w.tally.read, e.payload, rfl, hle, h.clean, rfl, rfl, hr.addr, hr.rest, hid, hle, ?_⟩
    rw [Arena.slice_write_self _ _ (by omega)]
    exact hkey ▸ he.sound

theorem reload (h : w.Sound plan) (hp : plan.Feasible) (hr : r.Ready plan w.arena off)
    (hoff : off + plan.slotSize ≤ w.arena.size) {key : Key} {len : Nat}
    (hphase : (ReaderPhase.reload id key len).Ready plan w.arena off) :
    w.Harmless plan off (w.reload r id key len) := by
  obtain ⟨hid, hle, hsound⟩ := hphase
  have hload := Arena.load_add off len (h.fit hp) (by omega)
  simp only [World.reload, hr.addr, hload, hsound]
  exact harmless_of_tally ⟨rfl, hr.rest, hid⟩ h.clean rfl rfl

theorem list (h : w.Sound plan) (hp : plan.Feasible) (hr : r.Ready plan w.arena off)
    (hid : id.slot < plan.groups) (hoff : off + plan.slotSize ≤ w.arena.size) :
    w.Harmless plan off (w.list r id) := by
  obtain ⟨g, -, hascending, hallowed, -, hle, hlist⟩ :=
    Workload.listKeys_window h.holds (h.fit hp) hoff hid
  have hbytes := length_flatMap_ofWord g.index.keys
  have hwords := words_flatMap_ofWord g.index.keys
  rw [Index.length_keys] at hbytes hwords
  have hslice := Arena.slice_write_self (a := w.arena) off (g.index.keys.flatMap Bytes.ofWord)
    (by omega)
  rw [hbytes] at hslice
  rw [← hr.addr, ← h.plan_eq] at hlist
  simp only [World.list, deliver, hlist]
  refine ⟨w.tally.list, _, rfl, hbytes ▸ hle, h.clean, rfl, rfl, hr.addr, hr.rest, hid, hle, ?_, ?_⟩
  · rw [hslice, hwords, Index.strictlyAscending_iff]
    exact hascending
  · rw [hslice, hwords]
    intro k hk
    obtain ⟨e, he, rfl⟩ := List.mem_map.1 hk
    exact (hallowed e he).key_lt

theorem reloadKeys (h : w.Sound plan) (hp : plan.Feasible) (hr : r.Ready plan w.arena off)
    (hoff : off + plan.slotSize ≤ w.arena.size) {count : Nat}
    (hphase : (ReaderPhase.reloadKeys id count).Ready plan w.arena off) :
    w.Harmless plan off (w.reloadKeys r id count) := by
  obtain ⟨hid, hle, hascending, hlt⟩ := hphase
  have hload := Arena.loadKeys_add off count (h.fit hp) (by omega)
  have hall : (Bytes.words count (w.arena.slice off (count * keySize))).all
      (fun key => key < w.plan.keys) = true := by
    simpa [h.plan_eq] using hlt
  simp only [World.reloadKeys, hr.addr, hload, hascending, hall]
  exact harmless_of_tally ⟨rfl, hr.rest, hid⟩ h.clean rfl rfl

theorem scan (h : w.Sound plan) (hr : r.Ready plan w.arena off) (hid : id.slot < plan.groups) :
    w.Harmless plan off (w.scan r id) := by
  obtain ⟨g, hg, hascending, hallowed⟩ := h.holds.group hid
  obtain ⟨last, hlast⟩ := Reader.visitAll_inspect g.index.toList none hallowed
    (Index.ascending_iff.1 hascending) nofun
  have hvisit : w.store.forEach id (Reader.inspect id) none = .ok (none, last) := by
    rw [Store.forEach, Store.snapshot_of_group hg, Except.map, hlast]
  simp only [World.scan, hvisit]
  exact harmless_of_tally (.advance hr.addr hr.rest) h.clean rfl rfl

theorem stepReader (h : w.Sound plan) (hp : plan.Feasible) (hr : r.Ready plan w.arena off)
    (hoff : off + plan.slotSize ≤ w.arena.size) : w.Harmless plan off (w.stepReader r) := by
  have hphase := hr.phase
  unfold World.stepReader
  cases hnext : r.phase with
  | poll =>
    refine harmless_of_tally (.advance hr.addr fun id hid => ?_) h.clean rfl rfl
    obtain ⟨n, hn, rfl⟩ := List.mem_map.1 hid
    have hlt := List.mem_range.1 hn
    have hgroups := hp.groups_le
    rw [h.plan_eq] at hlt
    simp only [groupLimit] at hgroups
    rwa [GroupId.slot_ofSlot (by omega)]
  | lookup id =>
    rw [hnext] at hphase
    exact h.lookup hr hphase
  | copy id key =>
    rw [hnext] at hphase
    exact h.copy hp hr hphase hoff key
  | reload id key len =>
    rw [hnext] at hphase
    exact h.reload hp hr hoff hphase
  | list id =>
    rw [hnext] at hphase
    exact h.list hp hr hphase hoff
  | reloadKeys id count =>
    rw [hnext] at hphase
    exact h.reloadKeys hp hr hoff hphase
  | scan id =>
    rw [hnext] at hphase
    exact h.scan hr hphase
  | gone => exact harmless_of_tally hr h.clean rfl rfl

theorem window_le {n : Nat} (h : w.Sound plan) (hn : n < plan.readers) :
    n * plan.slotSize + plan.slotSize ≤ w.arena.size := by
  rw [h.size]
  exact Workload.window_le hn

theorem step_reader (h : w.Sound plan) (hp : plan.Feasible) (n : Nat) :
    (w.step (.reader n)).Sound plan := by
  simp only [step]
  cases hr : w.readers[n]? with
  | none => exact h
  | some r =>
    obtain ⟨hn, hready⟩ := h.readers n r hr
    obtain ⟨tally, bs, hworld, hlen, hclean, -, -, hnext⟩ :=
      h.stepReader hp hready (h.window_le hn)
    simp only [hworld]
    refine ⟨h.plan_eq, h.holds, h.maxEntryLen, h.base, ?_, h.writers, fun m r' hr' => ?_, hclean⟩
    · exact Arena.size_write.trans h.size
    · rw [List.getElem?_set] at hr'
      by_cases hmn : n = m
      · subst hmn
        rw [if_pos rfl] at hr'
        obtain ⟨-, he⟩ := Option.ite_none_right_eq_some.1 hr'
        cases he
        exact ⟨hn, hnext⟩
      · rw [if_neg hmn] at hr'
        obtain ⟨hm, hready'⟩ := h.readers m r' hr'
        have hwindow := h.window_le hn
        refine ⟨hm, hready'.write (h.window_le hm) (by omega) ?_⟩
        obtain hd | hd := Workload.window_disjoint (Ne.symm hmn) plan.slotSize
        · exact .inl hd
        · exact .inr (by omega)

theorem stepWriter (h : w.Sound plan) (hp : plan.Feasible) {wr : Writer}
    (hid : wr.group.slot < plan.groups) :
    (w.stepWriter wr).2.Sound plan ∧ (w.stepWriter wr).1.group = wr.group := by
  unfold World.stepWriter
  cases hphase : wr.phase with
  | working =>
    dsimp only
    split
    · have hop := Writer.operate_spec w.tally hp h.holds h.maxEntryLen hid
      rw [h.plan_eq]
      generalize wr.operate plan w.store w.tally = next at hop
      cases hop with
      | put g e hnext hg he hkey =>
        exact ⟨⟨rfl, h.holds.put _ hg he, h.maxEntryLen, h.base, h.size, h.writers, h.readers,
          h.clean⟩, rfl⟩
      | missed => exact ⟨⟨rfl, h.holds, h.maxEntryLen, h.base, h.size, h.writers, h.readers,
          h.clean⟩, rfl⟩
      | removed g next e hnext hg hr =>
        exact ⟨⟨rfl, h.holds.remove _ hg hr, h.maxEntryLen, h.base, h.size, h.writers, h.readers,
          h.clean⟩, rfl⟩
    · exact ⟨⟨h.plan_eq, h.holds, h.maxEntryLen, h.base, h.size, h.writers, h.readers, h.clean⟩,
        rfl⟩
  | announcing =>
    exact ⟨⟨h.plan_eq, h.holds, h.maxEntryLen, h.base, h.size, h.writers, h.readers, h.clean⟩, rfl⟩
  | gone => exact ⟨h, rfl⟩

theorem step_writer (h : w.Sound plan) (hp : plan.Feasible) (n : Nat) :
    (w.step (.writer n)).Sound plan := by
  simp only [step]
  cases hwr : w.writers[n]? with
  | none => exact h
  | some wr =>
    have hid := h.writers wr (List.mem_of_getElem? hwr)
    obtain ⟨hs, hgroup⟩ := h.stepWriter hp hid
    refine ⟨hs.plan_eq, hs.holds, hs.maxEntryLen, hs.base, hs.size, fun wr' hwr' => ?_, hs.readers,
      hs.clean⟩
    obtain hmem | rfl := List.mem_or_eq_of_mem_set hwr'
    · exact hs.writers wr' hmem
    · rwa [hgroup]

theorem step (h : w.Sound plan) (hp : plan.Feasible) (actor : Actor) :
    (w.step actor).Sound plan := by
  cases actor with
  | writer n => exact h.step_writer hp n
  | reader n => exact h.step_reader hp n

theorem run (h : w.Sound plan) (hp : plan.Feasible) (schedule : List Actor) :
    (w.run schedule).Sound plan := by
  induction schedule generalizing w with
  | nil => exact h
  | cons actor schedule ih => exact ih (h.step hp actor)

end Sound

end World

namespace Workload

variable {plan : Workload}

theorem Feasible.setup_sound (hp : plan.Feasible) : plan.setup.Sound plan where
  plan_eq := rfl
  holds := hp.setup_housed.holds
  maxEntryLen := by
    have hmax : plan.setup.store.config.maxEntryLen = maxWord := by
      rw [store_setup]
      rfl
    have hslot : plan.payloadLen ≤ plan.slotSize := Nat.le_max_left ..
    have hone : 0 < max plan.readers 1 := Nat.le_max_right ..
    have harena := Nat.le_trans (Nat.le_mul_of_pos_right _ hone) hp.arena_le
    rw [hmax]
    exact Nat.le_trans hslot (Nat.le_trans harena (by decide))
  base := rfl
  size := hp.setup_housed.size
  writers := hp.setup_housed.writers
  readers n r hr := by
    simp only [setup, World.initial, List.getElem?_map, Option.map_eq_some_iff] at hr
    obtain ⟨m, hm, rfl⟩ := hr
    obtain ⟨hn, rfl⟩ := List.getElem?_eq_some_iff.1 hm
    rw [List.length_range] at hn
    rw [List.getElem_range]
    exact ⟨hn, rfl, fun id hid => absurd hid List.not_mem_nil, trivial⟩
  clean := rfl

end Workload

end SnapshotStore
