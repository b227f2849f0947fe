import SnapshotStore.Proofs.Memory.Law
import SnapshotStore.Proofs.Session.Failure
import SnapshotStore.Proofs.Session.Representation

namespace SnapshotStore

namespace Store

variable {room : Allocator} {s : Store} {id : GroupId} {g : Group} {key : Key} (src : Source)

theorem putFromWithin_of_le (h : s.allocated ≤ id.slot) :
    s.putFromWithin room id key src = (.error (.groupNotFound id), s) := by
  simp only [putFromWithin, group_of_le h]

theorem putFromWithin_of_tooLong (hg : s.group id = .ok g) (h : s.config.maxEntryLen < src.len) :
    s.putFromWithin room id key src =
      (.error (.invalidArgument (.payloadTooLong src.len s.config.maxEntryLen)), s) := by
  simp only [putFromWithin, hg, if_pos h]

theorem putFromWithin_of_refused (hg : s.group id = .ok g)
    (hlen : src.len ≤ s.config.maxEntryLen) {refusal : Refusal}
    (h : room.payload src.len = .error refusal) :
    s.putFromWithin room id key src =
      (.error (.outOfMemory (.payload src.len refusal)), s) := by
  simp only [putFromWithin, hg, if_neg (Nat.not_lt.2 hlen), Entry.copyWithin, h]

theorem putFromWithin_of_fault (hg : s.group id = .ok g)
    (hlen : src.len ≤ s.config.maxEntryLen) (hroom : room.payload src.len = .ok ())
    {fault : CopyFault} (h : src.fetch = .error fault) :
    s.putFromWithin room id key src = (.error (.copyFault fault), s) := by
  simp only [putFromWithin, hg, if_neg (Nat.not_lt.2 hlen), Entry.copyWithin, hroom, h]

theorem putFromWithin_of_fetch (hg : s.group id = .ok g) (hlen : src.len ≤ s.config.maxEntryLen)
    (hroom : room.payload src.len = .ok ()) {bs : Bytes} (h : src.fetch = .ok bs)
    (hindex : room.index (g.index.upsert ⟨id, key, bs⟩).1.size = .ok ()) :
    s.putFromWithin room id key src = (.ok (.ofReplaced (g.index.upsert ⟨id, key, bs⟩).2),
      s.publish id (g.index.upsert ⟨id, key, bs⟩).1 (g.index.upsert ⟨id, key, bs⟩).2.isSome) := by
  simp only [putFromWithin, hg, if_neg (Nat.not_lt.2 hlen), Entry.copyWithin, hroom, h,
    Index.reserve, hindex]
  cases (g.index.upsert ⟨id, key, bs⟩).2 <;> rfl

/-- Of a source no more is seen than its length and what is fetched from it. -/
theorem putFromWithin_congr {src other : Source} (hlen : src.len = other.len)
    (hfetch : src.fetch = other.fetch) :
    s.putFromWithin room id key src = s.putFromWithin room id key other := by
  simp only [putFromWithin, Entry.copyWithin, hlen, hfetch]

end Store

namespace Session

/-- How a write of foreign bytes has to come out: the first failure that applies, in this order,
and otherwise what comes of writing the bytes that are there. -/
inductive Fetched (heap : Heap) (limit : Nat) (s : Session) (arena : Arena) (id : GroupId)
    (key : Key) (addr : Address) (len : Nat) : Reply × Session → Prop
  | unallocated (h : s.store.allocated ≤ id.slot) :
    Fetched heap limit s arena id key addr len (.failed (.groupNotFound id), s)
  | tooLong (hid : id.slot < s.store.allocated) (h : limit < len) :
    Fetched heap limit s arena id key addr len
      (.failed (.invalidArgument (.payloadTooLong len limit)), s)
  | refused (hid : id.slot < s.store.allocated) (hlen : len ≤ limit) {refusal : Refusal}
      (h : heap.payload len = .error refusal) :
    Fetched heap limit s arena id key addr len (.failed (.outOfMemory (.payload len refusal)), s)
  | faulted (hid : id.slot < s.store.allocated) (hlen : len ≤ limit)
      (hroom : heap.payload len = .ok ()) (h : arena.load addr len = .error ⟨addr, len⟩) :
    Fetched heap limit s arena id key addr len (.failed (.copyFault ⟨addr, len⟩), s)
  | put (hid : id.slot < s.store.allocated) (hlen : len ≤ limit)
      (hroom : heap.payload len = .ok ()) {bytes : Bytes} (h : arena.load addr len = .ok bytes) :
    Fetched heap limit s arena id key addr len (s.stepWithin heap (.put id key bytes))

variable {config : Config} {s : Session} {arena : Arena} {n : Nat}

theorem stepWithin_putFrom (harena : s.arenas[n]? = some arena) (heap : Heap) (id : GroupId)
    (key : Key) (addr : Address) (len : Nat) :
    s.stepWithin heap (.putFrom id key (.foreign n addr len)) =
      s.act (s.store.putFromWithin heap.toAllocator id key (.foreign arena addr len)) .outcome := by
  have hsource : (Payload.Origin.foreign n addr len).source? s.arenas =
      some (.foreign arena addr len) := by
    rw [Payload.Origin.source?, harena]
    rfl
  simp only [stepWithin, hsource]

theorem putFrom_fetched (hs : s.store.WellFormed config) (harena : s.arenas[n]? = some arena)
    (heap : Heap) (id : GroupId) (key : Key) (addr : Address) (len : Nat) :
    Fetched heap config.maxEntryLen s arena id key addr len
      (s.stepWithin heap (.putFrom id key (.foreign n addr len))) := by
  rw [stepWithin_putFrom harena, ← hs.config_eq]
  by_cases hid : id.slot < s.store.allocated
  · obtain ⟨g, -, hg⟩ := hs.exists_group hid
    by_cases hlen : len ≤ s.store.config.maxEntryLen
    · cases hroom : heap.payload len with
      | error refusal =>
        rw [Store.putFromWithin_of_refused (.foreign arena addr len) hg hlen hroom]
        exact .refused hid hlen hroom
      | ok _ =>
        cases hload : arena.load addr len with
        | error fault =>
          obtain rfl := Arena.load_error hload
          rw [Store.putFromWithin_of_fault (.foreign arena addr len) hg hlen hroom hload]
          exact .faulted hid hlen hroom hload
        | ok bytes =>
          have hlength : len = bytes.length := (Arena.length_of_load hload).symm
          have hsame : s.store.putFromWithin heap.toAllocator id key (.foreign arena addr len) =
              s.store.putFromWithin heap.toAllocator id key (.own bytes) :=
            Store.putFromWithin_congr hlength hload
          rw [hsame]
          exact .put hid hlen hroom hload
    · rw [Store.putFromWithin_of_tooLong (.foreign arena addr len) hg (Nat.not_le.1 hlen)]
      exact .tooLong hid (Nat.not_le.1 hlen)
  · rw [Store.putFromWithin_of_le (.foreign arena addr len) (Nat.not_lt.1 hid)]
    exact .unallocated (Nat.not_lt.1 hid)

end Session

namespace Account

/-- A write from foreign memory is the write of the bytes that are there. That there is no memory
for them is noticed before they are looked at, and that they are too many before that. -/
theorem putFrom_eq_put_of_load {config : Config} {store : Store}
    (hinit : Store.init config = .ok store) (arenas : List Arena) {a : Account}
    (h : Reaches (start store arenas) a) {n : Nat} {arena : Arena}
    (harena : a.session.arenas[n]? = some arena) (id : GroupId) (key : Key) (addr : Address)
    (len : Nat) :
    (∀ heap : Heap,
      Session.Fetched heap config.maxEntryLen a.session arena id key addr len
        (a.session.stepWithin heap (.putFrom id key (.foreign n addr len))) ∧
      (a.session.stepWithin heap (.putFrom id key (.foreign n addr len))).2.arenas =
        a.session.arenas ∧
      ((a.session.stepWithin heap (.putFrom id key (.foreign n addr len))).1.isFailure = true →
        (a.session.stepWithin heap (.putFrom id key (.foreign n addr len))).2 = a.session)) ∧
    (id.slot < a.store.allocated → len ≤ config.maxEntryLen → maxBuffer < len →
      a.session.step (.putFrom id key (.foreign n addr len)) =
        (.failed (.outOfMemory (.payload len .capacity)), a.session)) := by
  have hs := h.wellFormed (Store.WellFormed.init hinit)
  refine ⟨fun heap => ⟨Session.putFrom_fetched hs harena heap id key addr len, ?_, fun hfail => ?_⟩,
    fun hid hlen hbig => ?_⟩
  · rw [Session.stepWithin_putFrom harena, Session.act_snd]
  · exact (a.session.stepWithin_of_isFailure heap rfl hfail).2
  · obtain ⟨g, -, hg⟩ := hs.exists_group hid
    have hcapacity : Heap.usual.payload len = .error .capacity := if_pos hbig
    rw [← Session.stepWithin_usual, Session.stepWithin_putFrom harena,
      Store.putFromWithin_of_refused (.foreign arena addr len) hg (hs.config_eq ▸ hlen) hcapacity]
    rfl

def mapped : Account :=
  ((start pair [.zeroed 4096 2]).request .usual .allocate).request .usual
    (.arenaStore 0 4096 [7, 8])

theorem putFrom_eq_put_of_load_mapped :
    ∃ arena, Store.init pairConfig = .ok pair ∧ Reaches (start pair [.zeroed 4096 2]) mapped ∧
      mapped.session.arenas[0]? = some arena ∧
      Session.Fetched .usual 2 mapped.session arena ⟨0⟩ 5 4097 1
        (mapped.session.stepWithin .usual (.putFrom ⟨0⟩ 5 (.foreign 0 4097 1))) ∧
      arena.load 4097 1 = .ok [8] ∧
      mapped.session.step (.putFrom ⟨0⟩ 5 (.foreign 0 4097 1)) =
        mapped.session.step (.put ⟨0⟩ 5 [8]) ∧
      mapped.session.step (.putFrom ⟨0⟩ 5 (.foreign 0 4097 2)) =
        (.failed (.copyFault ⟨4097, 2⟩), mapped.session) := by
  have hinit : Store.init pairConfig = .ok pair := rfl
  have hreach : Reaches (start pair [.zeroed 4096 2]) mapped :=
    .request _ _ rfl (.request _ _ rfl (.refl _))
  have harena : mapped.session.arenas[0]? = some ((Arena.zeroed 4096 2).write 0 [7, 8]) := by
    decide +kernel
  obtain ⟨hfetched, -⟩ := putFrom_eq_put_of_load hinit _ hreach harena ⟨0⟩ 5 4097 1
  exact ⟨_, hinit, hreach, harena, (hfetched .usual).1, by decide +kernel, rfl, rfl⟩

end Account

end SnapshotStore
