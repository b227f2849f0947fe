import Mathlib.Algebra.Order.Floor.Div
import SnapshotStore.Proofs.Session.Fetching
import SnapshotStore.Proofs.Session.Reading
import SnapshotStore.Session.Pieces

namespace SnapshotStore

theorem ceilDiv_eq_succ {n piece : Nat} (hn : 0 < n) (hpiece : 0 < piece) :
    n ⌈/⌉ piece = (n - min piece n) ⌈/⌉ piece + 1 := by
  have hfirst : (n + piece - 1) / piece = (n - 1) / piece + 1 := by
    rw [← Nat.add_div_right _ hpiece, Nat.sub_add_comm hn]
  have hrest : (n - min piece n + piece - 1) / piece = (n - 1) / piece := by
    by_cases hle : piece ≤ n
    · have heq : n - min piece n + piece - 1 = n - 1 := by omega
      rw [heq]
    · have heq : n - min piece n + piece - 1 = piece - 1 := by omega
      rw [heq, Nat.div_eq_of_lt (by omega), Nat.div_eq_of_lt (by omega)]
  rw [Nat.ceilDiv_eq_add_pred_div, Nat.ceilDiv_eq_add_pred_div, hfirst, hrest]

theorem Entry.excerpt_append_drop (e : Entry) (offset length : Nat) :
    e.excerpt offset length ++ e.payload.drop (offset + e.count offset length) =
      e.payload.drop offset := by
  rw [excerpt, ← List.drop_drop, List.take_append_drop]

namespace Store

variable {config : Config} {room : Allocator} {s t : Store} {id : GroupId} {key : Key}
  {src : Source} {o : PutOutcome}

theorem WellFormed.get_of_putFromWithin (hs : s.WellFormed config) {bs : Bytes}
    (hfetch : src.fetch = .ok bs) (h : s.putFromWithin room id key src = (.ok o, t)) :
    t.get id key = .ok ⟨id, key, bs⟩ := by
  obtain ⟨e, heq⟩ | ⟨g, found, hg, hfound, -, heq⟩ := s.putFromWithin_cases room id key src
  · rw [heq] at h
    cases h
  · obtain rfl := Except.ok.inj (hfetch.symm.trans hfound)
    rw [heq] at h
    cases h
    have hget := Index.get?_upsert (hs.ascending hg) ⟨id, key, bs⟩ key
    rw [if_pos rfl] at hget
    rw [get, withEntry_of_group _ (group_publish hg), hget]
    rfl

end Store

theorem Arena.Mapped.part {base addr : Address} {size len off n : Nat}
    (h : Mapped base size addr len) (hpart : off + n ≤ len) (hoff : addr.toNat + off < wordSize) :
    Mapped base size (.ofNat (addr.toNat + off)) n := by
  have hto : (UInt64.ofNat (addr.toNat + off)).toNat = addr.toNat + off :=
    UInt64.toNat_ofNat_of_lt' hoff
  obtain ⟨hle, hfit⟩ := h
  rw [Mapped, hto]
  omega

namespace Session

variable {s t : Session} {id : GroupId} {key : Key} {e : Entry} {n : Nat} {a : Arena}
  {addr : Address} {length piece offset : Nat}

theorem step_read_foreign (hget : s.store.get id key = .ok e) (hlt : offset < e.len)
    (harena : s.arenas[n]? = some a)
    (hm : Arena.Mapped a.base a.size addr (e.count offset length)) :
    ∃ b, s.step (.read id key offset length (.foreign n addr)) =
        (.read (.ok (e.count offset length)) none, { s with arenas := s.arenas.set n b }) ∧
      a.Overwritten addr.toNat (e.excerpt offset length) b := by
  rw [← e.length_excerpt] at hm
  obtain ⟨b, hwrite, hb⟩ := Destination.writeBytes_of_mapped hm
  have hdst : (Target.foreign n addr : Target UInt8).destination? s.arenas =
      some (.foreign a addr) := by
    rw [Target.destination?, harena]
    rfl
  refine ⟨b, ?_, hb⟩
  simp only [step, hdst, Store.read_of_inside hget hlt, hwrite]
  rfl

theorem readPieces_of_le (h : length ≤ offset) :
    s.readPieces id key n addr length piece offset = (.ok 0, s) := by
  rw [readPieces, if_neg (Nat.not_lt.2 h)]

theorem readPieces_of_read {count : Nat} {buffer : Option Bytes} (h : offset < length)
    (haddr : addr.toNat + offset < wordSize) (hcount : 0 < count)
    (hread : s.step (.read id key offset piece (.foreign n (.ofNat (addr.toNat + offset)))) =
      (.read (.ok count) buffer, t)) :
    s.readPieces id key n addr length piece offset =
      ((t.readPieces id key n addr length piece (offset + count)).1.map (· + 1),
        (t.readPieces id key n addr length piece (offset + count)).2) := by
  have hadd : Word.add addr.toNat offset = .ok (addr.toNat + offset) :=
    Word.add_eq_ok.2 ⟨haddr, rfl⟩
  rw [readPieces, if_pos h]
  simp only [hadd, hread, if_pos hcount]

/-- From any offset on, the rest of an entry arrives in as few pieces as it takes. -/
theorem readPieces_of_mapped (hget : s.store.get id key = .ok e) (harena : s.arenas[n]? = some a)
    (hm : Arena.Mapped a.base a.size addr e.len) (hend : addr.toNat + e.len ≤ wordSize)
    (hpiece : 0 < piece) (offset : Nat) :
    ∃ b, s.readPieces id key n addr e.len piece offset =
        (.ok ((e.len - offset) ⌈/⌉ piece), { s with arenas := s.arenas.set n b }) ∧
      a.Overwritten (addr.toNat + offset) (e.payload.drop offset) b := by
  have hn : n < s.arenas.length := (List.getElem?_eq_some_iff.1 harena).1
  -- on the number of bytes that are left: each piece leaves fewer
  induction hleft : e.len - offset using Nat.strongRecOn generalizing s a offset with
  | ind left ih =>
    subst hleft
    by_cases hlt : offset < e.len
    · have hcount : e.count offset piece = min piece (e.len - offset) := rfl
      have haddr : addr.toNat + offset < wordSize := by omega
      have hpart : Arena.Mapped a.base a.size (.ofNat (addr.toNat + offset))
          (e.count offset piece) := hm.part (by omega) haddr
      obtain ⟨b, hread, hb⟩ := step_read_foreign hget hlt harena hpart
      rw [UInt64.toNat_ofNat_of_lt' haddr] at hb
      obtain ⟨c, hrest, hc⟩ := ih (e.len - (offset + e.count offset piece)) (by omega)
        (s := { s with arenas := s.arenas.set n b }) hget (List.getElem?_set_self hn)
        (by rwa [hb.base, hb.size]) (offset + e.count offset piece) (by rwa [List.length_set]) rfl
      refine ⟨c, ?_, ?_⟩
      · rw [readPieces_of_read hlt haddr (by omega) hread, hrest, List.set_set, Except.map,
          ceilDiv_eq_succ (Nat.sub_pos_of_lt hlt) hpiece, ← hcount, Nat.sub_add_eq]
      · rw [← e.excerpt_append_drop offset piece]
        refine hb.append ?_
        rwa [e.length_excerpt, Nat.add_assoc]
    · have hle : e.len ≤ offset := Nat.not_lt.1 hlt
      have hsame : s.arenas.set n a = s.arenas := by
        obtain ⟨-, rfl⟩ := List.getElem?_eq_some_iff.1 harena
        exact List.set_getElem_self hn
      refine ⟨a, ?_, ?_⟩
      · rw [readPieces_of_le hle, hsame, Nat.sub_eq_zero_of_le hle, zero_ceilDiv]
      · rw [List.drop_eq_nil_of_le hle]
        exact a.overwritten_nil _

variable {config : Config} {heap : Heap} {src : Address} {o : PutOutcome}

theorem exists_putFrom_eq_outcome (hs : s.store.WellFormed config) (harena : s.arenas[n]? = some a)
    (hid : id.slot < s.store.allocated) (key : Key) {bs : Bytes}
    (hload : a.load src bs.length = .ok bs) (hlen : bs.length ≤ config.maxEntryLen)
    (hroom : heap.payload bs.length = .ok ()) (hindex : ∀ size, heap.index size = .ok ()) :
    ∃ o t, s.stepWithin heap (.putFrom id key (.foreign n src bs.length)) = (.outcome o, t) := by
  obtain ⟨g, -, hg⟩ := hs.exists_group hid
  rw [stepWithin_putFrom harena, Store.putFromWithin_of_fetch (.foreign a src bs.length) hg
    (hs.config_eq.symm ▸ hlen) hroom hload (hindex _)]
  exact ⟨_, _, rfl⟩

theorem get_of_putFrom_eq_outcome (hs : s.store.WellFormed config)
    (harena : s.arenas[n]? = some a) {bs : Bytes} (hload : a.load src bs.length = .ok bs)
    (h : s.stepWithin heap (.putFrom id key (.foreign n src bs.length)) = (.outcome o, t)) :
    t.arenas = s.arenas ∧ t.store.get id key = .ok ⟨id, key, bs⟩ := by
  have hfetch : (Source.foreign a src bs.length).fetch = .ok bs := hload
  rw [stepWithin_putFrom harena] at h
  cases hput : s.store.putFromWithin heap.toAllocator id key (.foreign a src bs.length) with
  | mk result next =>
    rw [hput] at h
    cases result with
    | error err => cases h
    | ok outcome =>
      cases h
      exact ⟨rfl, hs.get_of_putFromWithin hfetch hput⟩

end Session

namespace Account

/-- Bytes that are put from foreign memory and read back to it in pieces arrive as they were found,
wherever they are to go, and nothing else is touched. -/
theorem roundTrip_inPieces {config : Config} {store : Store}
    (hinit : Store.init config = .ok store) (arenas : List Arena) {a : Account}
    (h : Reaches (start store arenas) a) {id : GroupId} (hid : id.slot < a.store.allocated)
    (key : Key) {n m : Nat} {source target : Arena} (hsource : a.session.arenas[n]? = some source)
    (htarget : a.session.arenas[m]? = some target) {src dst : Address} {bs : Bytes}
    (hload : source.load src bs.length = .ok bs) (hlen : bs.length ≤ config.maxEntryLen)
    (hmapped : Arena.Mapped target.base target.size dst bs.length)
    (hend : dst.toNat + bs.length ≤ wordSize) {piece : Nat} (hpiece : 0 < piece)
    (heap : Heap) :
    (heap.payload bs.length = .ok () → (∀ size, heap.index size = .ok ()) → ∃ o s,
      a.session.stepWithin heap (.putFrom id key (.foreign n src bs.length)) = (.outcome o, s)) ∧
    ∀ o s, a.session.stepWithin heap (.putFrom id key (.foreign n src bs.length)) =
        (.outcome o, s) →
      ∃ next, s.readPieces id key m dst bs.length piece 0 =
          (.ok (bs.length ⌈/⌉ piece), { s with arenas := s.arenas.set m next }) ∧
        target.Overwritten dst.toNat bs next ∧ next.load dst bs.length = .ok bs := by
  have hs := h.wellFormed (Store.WellFormed.init hinit)
  refine ⟨Session.exists_putFrom_eq_outcome hs hsource hid key hload hlen, fun o s hput => ?_⟩
  obtain ⟨harenas, hget⟩ := Session.get_of_putFrom_eq_outcome hs hsource hload hput
  obtain ⟨next, hread, hnext⟩ := Session.readPieces_of_mapped hget (harenas.symm ▸ htarget)
    hmapped hend hpiece 0
  exact ⟨next, hread, hnext, hnext.load hmapped⟩

def loneConfig : Config := { maxGroups := 1 }

def lone : Store where
  config := loneConfig
  groups := [⟨⟨0⟩, .empty⟩]
  allocated := 0
  reclaimer := { eager := false }

def fiveBytes : Arena := (Arena.zeroed 4096 6).write 0 [1, 2, 3, 4, 5]

def supplied : Account :=
  ((start lone [.zeroed 4096 6]).request .usual .allocate).request .usual
    (.arenaStore 0 4096 [1, 2, 3, 4, 5])

/-- Five bytes, moved up by one in pieces of two: the last piece is short, and each piece is written
over bytes that the store still has to give back. -/
theorem roundTrip_inPieces_overlapping :
    Store.init loneConfig = .ok lone ∧ Reaches (start lone [.zeroed 4096 6]) supplied ∧
      ∃ o s next, supplied.session.stepWithin .usual (.putFrom ⟨0⟩ 7 (.foreign 0 4096 5)) =
          (.outcome o, s) ∧
        s.readPieces ⟨0⟩ 7 0 4097 5 2 0 = (.ok 3, { s with arenas := s.arenas.set 0 next }) ∧
        next.load 4097 5 = .ok [1, 2, 3, 4, 5] ∧ next.memory[0]? = some 1 := by
  have hinit : Store.init loneConfig = .ok lone := rfl
  have hreach : Reaches (start lone [.zeroed 4096 6]) supplied :=
    .request _ _ rfl (.request _ _ rfl (.refl _))
  have harena : supplied.session.arenas[0]? = some fiveBytes := by decide +kernel
  have hid : (⟨0⟩ : GroupId).slot < supplied.store.allocated := by decide +kernel
  have hload : fiveBytes.load 4096 [1, 2, 3, 4, 5].length = .ok [1, 2, 3, 4, 5] := by decide +kernel
  have hlen : ([1, 2, 3, 4, 5] : Bytes).length ≤ loneConfig.maxEntryLen := by decide
  have hmapped : Arena.Mapped fiveBytes.base fiveBytes.size 4097 [1, 2, 3, 4, 5].length := by
    decide +kernel
  have hend : (4097 : Address).toNat + [1, 2, 3, 4, 5].length ≤ wordSize := by decide
  obtain ⟨hput, hpieces⟩ := roundTrip_inPieces hinit _ hreach hid 7 harena harena hload hlen hmapped
    hend Nat.two_pos .usual
  obtain ⟨o, s, hs⟩ := hput rfl fun _ => rfl
  obtain ⟨next, hread, hnext, hback⟩ := hpieces o s hs
  exact ⟨hinit, hreach, o, s, next, hs, hread, hback, hnext.bytes 0 (by decide +kernel)⟩

end Account

end SnapshotStore
