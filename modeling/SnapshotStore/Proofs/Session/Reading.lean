import SnapshotStore.Proofs.Memory.Delivery
import SnapshotStore.Proofs.Payload.Language
import SnapshotStore.Proofs.Session.Representation
import SnapshotStore.Proofs.Store.Holds
import SnapshotStore.Proofs.Store.Views
import SnapshotStore.Store.Checked

namespace SnapshotStore

namespace Entry

def count (e : Entry) (offset length : Nat) : Nat := min length (e.len - offset)

def excerpt (e : Entry) (offset length : Nat) : Bytes :=
  (e.payload.drop offset).take (e.count offset length)

theorem length_excerpt (e : Entry) (offset length : Nat) :
    (e.excerpt offset length).length = e.count offset length := by
  rw [excerpt, List.length_take, List.length_drop]
  exact Nat.min_eq_left (Nat.min_le_right ..)

/-- What a read of an entry has to answer, and what it leaves of its destination. -/
inductive Delivers (e : Entry) (offset length : Nat) :
    Destination UInt8 → Except StoreError Nat × Destination UInt8 → Prop
  | outside (h : e.len ≤ offset) (dst : Destination UInt8) :
    Delivers e offset length dst (.error (.invalidArgument (.offsetOutside offset e.len)), dst)
  | short (h : offset < e.len) {buffer : Bytes} (hshort : buffer.length < e.count offset length) :
    Delivers e offset length (.own buffer)
      (.error (.invalidArgument (.tooLittleRoom buffer.length (e.count offset length))),
        .own buffer)
  | own (h : offset < e.len) {buffer : Bytes} (hroom : e.count offset length ≤ buffer.length) :
    Delivers e offset length (.own buffer)
      (.ok (e.count offset length),
        .own (e.excerpt offset length ++ buffer.drop (e.count offset length)))
  | fault (h : offset < e.len) {a : Arena} {addr : Address}
      (hm : ¬ Arena.Mapped a.base a.size addr (e.count offset length)) :
    Delivers e offset length (.foreign a addr)
      (.error (.copyFault ⟨addr, e.count offset length⟩), .foreign a addr)
  | foreign (h : offset < e.len) {a b : Arena} {addr : Address}
      (hm : Arena.Mapped a.base a.size addr (e.count offset length))
      (hb : a.Overwritten addr.toNat (e.excerpt offset length) b) :
    Delivers e offset length (.foreign a addr) (.ok (e.count offset length), .foreign b addr)

end Entry

namespace Store

variable {s : Store} {id : GroupId} {g : Group} {key : Key} {e : Entry} {offset length : Nat}

theorem read_of_outside (hget : s.get id key = .ok e) (h : e.len ≤ offset)
    (dst : Destination UInt8) : s.read id key offset length dst =
      (.error (.invalidArgument (.offsetOutside offset e.len)), dst) := by
  simp only [read, hget, if_pos h]

theorem read_of_inside (hget : s.get id key = .ok e) (h : offset < e.len)
    (dst : Destination UInt8) : s.read id key offset length dst =
      ((dst.writeBytes (e.excerpt offset length)).1.map fun _ => e.count offset length,
        (dst.writeBytes (e.excerpt offset length)).2) := by
  have hmin : min length (e.len - offset) = e.count offset length := rfl
  have hcut : (e.payload.drop offset).take (e.count offset length) = e.excerpt offset length := rfl
  simp only [read, hget, if_neg (Nat.not_le.2 h), hmin, hcut]
  rcases dst.writeBytes (e.excerpt offset length) with ⟨err | _, next⟩ <;> rfl

theorem read_delivers (hget : s.get id key = .ok e) (dst : Destination UInt8) :
    e.Delivers offset length dst (s.read id key offset length dst) := by
  have hlen := e.length_excerpt offset length
  by_cases h : e.len ≤ offset
  · rw [read_of_outside hget h]
    exact .outside h dst
  · have hlt : offset < e.len := Nat.not_le.1 h
    rw [read_of_inside hget hlt]
    cases dst with
    | own buffer =>
      by_cases hshort : buffer.length < e.count offset length
      · simp only [Destination.writeBytes, Destination.ensureRoom, hlen, if_pos hshort]
        exact .short hlt hshort
      · simp only [Destination.writeBytes, Destination.ensureRoom, hlen, if_neg hshort]
        exact .own hlt (Nat.not_lt.1 hshort)
    | foreign a addr =>
      by_cases hm : Arena.Mapped a.base a.size addr (e.count offset length)
      · obtain ⟨b, hwrite, hb⟩ := Destination.writeBytes_of_mapped (hlen.symm ▸ hm)
        rw [hwrite]
        exact .foreign hlt hm hb
      · rw [Destination.writeBytes_of_not_mapped (hlen.symm ▸ hm), hlen]
        exact .fault hlt hm

end Store

theorem Destination.tryWriteBytes_eq (dst : Destination UInt8) (bs : Bytes) :
    dst.tryWriteBytes bs = .ok (dst.writeBytes bs) := by
  cases dst with
  | own buffer =>
    by_cases hshort : buffer.length < bs.length
    · simp only [tryWriteBytes, writeBytes, ensureRoom, if_pos hshort]
    · have hrange := Payload.range_zero (Nat.not_lt.1 hshort)
      simp only [tryWriteBytes, writeBytes, ensureRoom, if_neg hshort, hrange]
      rfl
  | foreign a addr =>
    cases hw : a.window addr bs.length with
    | error fault => simp only [tryWriteBytes, writeBytes, ensureRoom, Arena.store, hw]
    | ok start =>
      have hfit : start + bs.length ≤ a.memory.toList.length := (Arena.window_eq_ok.1 hw).2
      have hrange := Payload.range_eq_ok (Nat.le_add_right start bs.length) hfit
      simp only [tryWriteBytes, writeBytes, ensureRoom, Arena.store, hw, hrange]
      rfl

namespace Store

variable {config : Config} {s : Store}

theorem WellFormed.len_le (hs : s.WellFormed config) {id : GroupId} {key : Key} {e : Entry}
    (hget : s.get id key = .ok e) : e.len ≤ config.maxEntryLen := by
  by_cases hid : id.slot < s.allocated
  · obtain ⟨g, -, hg⟩ := hs.exists_group hid
    exact (hs.entry_group hg ((hs.get_eq_ok hg).1 hget).1).2
  · have hnot : s.get id key = .error (.groupNotFound id) := withEntry_of_le _ (Nat.not_lt.1 hid)
    cases hnot.symm.trans hget

/-- Whatever is asked for, no step overflows and no range is missed. -/
theorem WellFormed.tryRead_eq (hs : s.WellFormed config) (hword : config.maxEntryLen < wordSize)
    (id : GroupId) (key : Key) (offset length : Nat) (dst : Destination UInt8) :
    s.tryRead id key offset length dst = .ok (s.read id key offset length dst) := by
  cases hget : s.get id key with
  | error err => simp only [tryRead, read, hget]
  | ok e =>
    by_cases h : e.len ≤ offset
    · simp only [tryRead, read, hget, if_pos h]
    · have hlt : offset < e.len := Nat.not_le.1 h
      have hlen : e.len < wordSize := Nat.lt_of_le_of_lt (hs.len_le hget) hword
      have hcount : e.count offset length ≤ e.len - offset := Nat.min_le_right ..
      have hsub : Word.sub e.len offset = .ok (e.len - offset) :=
        Word.sub_eq_ok.2 ⟨Nat.le_of_lt hlt, rfl⟩
      have hadd : Word.add offset (e.count offset length) =
          .ok (offset + e.count offset length) := Word.add_eq_ok.2 ⟨by omega, rfl⟩
      have hrange : Payload.range e.payload offset (offset + e.count offset length) =
          .ok (e.excerpt offset length) := by
        have hstop : offset + e.count offset length ≤ e.payload.length := by
          change _ ≤ e.len
          omega
        rw [Payload.range_eq_ok (Nat.le_add_right ..) hstop, Nat.add_sub_cancel_left]
        rfl
      have hmin : min length (e.len - offset) = e.count offset length := rfl
      simp only [tryRead, hget, if_neg h, hsub, hmin, hadd, hrange, Except.mapError, bind,
        Except.bind, pure, Except.pure, Destination.tryWriteBytes_eq, read_of_inside hget hlt]

end Store

namespace Account

/-- A read delivers exactly what the store holds from the offset on, as far as it is asked for and
is there, and it comes to the same whatever the destination. -/
theorem read_delivers_exact {config : Config} {store : Store}
    (hinit : Store.init config = .ok store) (arenas : List Arena) {a : Account}
    (h : Reaches (start store arenas) a) (id : GroupId) (key : Key) (offset length : Nat)
    (dst : Destination UInt8) :
    (config.maxEntryLen < wordSize →
      a.store.tryRead id key offset length dst = .ok (a.store.read id key offset length dst)) ∧
    (a.store.allocated ≤ id.slot →
      a.store.read id key offset length dst = (.error (.groupNotFound id), dst)) ∧
    (id.slot < a.store.allocated → ∃ g, a.store.group id = .ok g ∧
      ((∀ e ∈ g.index.toList, e.key ≠ key) →
        a.store.read id key offset length dst = (.error (.keyNotFound id key), dst)) ∧
      ∀ e ∈ g.index.toList, e.key = key →
        e.Delivers offset length dst (a.store.read id key offset length dst)) := by
  have hs := h.wellFormed (Store.WellFormed.init hinit)
  refine ⟨fun hword => hs.tryRead_eq hword id key offset length dst, fun hid => ?_, fun hid => ?_⟩
  · exact Store.read_of_error (Store.withEntry_of_le _ hid) offset length dst
  · obtain ⟨g, -, hg⟩ := hs.exists_group hid
    refine ⟨g, hg, fun habsent => ?_, fun e he hkey => ?_⟩
    · have hget : a.store.get id key = .error (.keyNotFound id key) := by
        have hnone := (Index.get?_eq_none_iff (hs.ascending hg)).2 habsent
        rw [Store.get, Store.withEntry_of_group _ hg, hnone]
        rfl
      exact Store.read_of_error hget offset length dst
    · exact Store.read_delivers ((hs.get_eq_ok hg).2 ⟨he, hkey⟩) dst

theorem read_delivers_exact_rest :
    Store.init pairConfig = .ok pair ∧ Reaches (start pair []) twoEntries ∧
      twoEntries.store.tryRead ⟨0⟩ 5 1 maxWord (.foreign (.zeroed 4096 4) 4098) =
        .ok (twoEntries.store.read ⟨0⟩ 5 1 maxWord (.foreign (.zeroed 4096 4) 4098)) ∧
      (⟨⟨0⟩, 5, [1, 2]⟩ : Entry).Delivers 1 maxWord (.foreign (.zeroed 4096 4) 4098)
        (twoEntries.store.read ⟨0⟩ 5 1 maxWord (.foreign (.zeroed 4096 4) 4098)) ∧
      twoEntries.store.read ⟨0⟩ 5 1 maxWord (.own [9, 9]) = (.ok 1, .own [2, 9]) := by
  have hinit : Store.init pairConfig = .ok pair := rfl
  have hword : pairConfig.maxEntryLen < wordSize := by decide
  obtain ⟨htry, -, hhere⟩ := read_delivers_exact hinit [] reaches_twoEntries ⟨0⟩ 5 1 maxWord
    (.foreign (.zeroed 4096 4) 4098)
  obtain ⟨g, hg, -, hdelivers⟩ := hhere (by decide +kernel)
  have hgroup : twoEntries.store.group ⟨0⟩ =
      .ok ⟨⟨0⟩, ⟨#[⟨⟨0⟩, 5, [1, 2]⟩, ⟨⟨0⟩, 6, [3]⟩]⟩⟩ := by decide +kernel
  obtain rfl := Except.ok.inj (hg.symm.trans hgroup)
  exact ⟨hinit, reaches_twoEntries, htry hword, hdelivers _ (List.mem_cons_self ..) rfl,
    by decide +kernel⟩

end Account

end SnapshotStore
