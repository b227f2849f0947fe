import SnapshotStore.Proofs.Memory.Delivery

namespace SnapshotStore

namespace Bytes

def wholeWords : Bytes → List UInt64
  | b₀ :: b₁ :: b₂ :: b₃ :: b₄ :: b₅ :: b₆ :: b₇ :: rest =>
    toWord [b₀, b₁, b₂, b₃, b₄, b₅, b₆, b₇] :: wholeWords rest
  | _ => []

@[simp] theorem length_words (n : Nat) (bs : Bytes) : (words n bs).length = n := by
  induction n generalizing bs with
  | zero => rfl
  | succ n ih => rw [words, List.length_cons, ih]

theorem flatMap_words {n : Nat} {bs : Bytes} (h : bs.length = n * 8) :
    (words n bs).flatMap ofWord = bs := by
  induction n generalizing bs with
  | zero => exact (List.eq_nil_of_length_eq_zero (h.trans (Nat.zero_mul 8))).symm
  | succ n ih =>
    rw [Nat.succ_mul] at h
    have hfirst : (bs.take 8).length = 8 := by rw [List.length_take]; omega
    have hrest : (bs.drop 8).length = n * 8 := by rw [List.length_drop]; omega
    rw [words, List.flatMap_cons, ofWord_toWord hfirst, ih hrest, List.take_append_drop]

theorem wholeWords_of_le {bs : Bytes} (h : 8 ≤ bs.length) :
    wholeWords bs = toWord (bs.take 8) :: wholeWords (bs.drop 8) := by
  match bs, h with
  | b₀ :: b₁ :: b₂ :: b₃ :: b₄ :: b₅ :: b₆ :: b₇ :: rest, _ => rfl

theorem words_eq_wholeWords {n : Nat} {bs : Bytes} (h : bs.length = n * 8) :
    words n bs = wholeWords bs := by
  induction n generalizing bs with
  | zero =>
    rw [List.eq_nil_of_length_eq_zero (h.trans (Nat.zero_mul 8))]
    rfl
  | succ n ih =>
    rw [Nat.succ_mul] at h
    have hcut : 8 ≤ bs.length := by omega
    have hrest : (bs.drop 8).length = n * 8 := by rw [List.length_drop]; omega
    rw [words, wholeWords_of_le hcut, ih hrest]

end Bytes

variable {a b c : Arena} {addr : Address} {ks : List Key} {key : Key} {slot count : Nat}

theorem slot_end_le {n : Nat} (h : slot < n) : slot * keySize + keySize ≤ n * keySize := by
  rw [← Nat.succ_mul]
  exact Nat.mul_le_mul_right keySize h

theorem getElem?_flatMap_ofWord (hkey : ks[slot]? = some key) {r : Nat} (hr : r < keySize) :
    (ks.flatMap Bytes.ofWord)[slot * keySize + r]? = (Bytes.ofWord key)[r]? := by
  induction ks generalizing slot with
  | nil => cases hkey
  | cons k ks ih =>
    have hk : (Bytes.ofWord k).length = keySize := Bytes.length_ofWord k
    rw [List.flatMap_cons]
    cases slot with
    | zero =>
      obtain rfl : k = key := Option.some.inj hkey
      rw [Nat.zero_mul, Nat.zero_add, List.getElem?_append_left (by omega)]
    | succ slot =>
      have hidx : (slot + 1) * keySize + r - keySize = slot * keySize + r := by
        rw [Nat.succ_mul]
        omega
      rw [List.getElem?_append_right (by rw [Nat.succ_mul]; omega), hk, hidx]
      exact ih hkey

/-- Write keys to slots by their numbers, in the order of the list and up to the first that
faults. -/
def Destination.writeEach (dst : Destination Key) :
    List (Key × Nat) → Except StoreError Unit × Destination Key
  | [] => (.ok (), dst)
  | (key, slot) :: writes =>
    match dst.writeKey slot key with
    | (.ok (), dst) => dst.writeEach writes
    | (.error e, dst) => (.error e, dst)

namespace Arena

open Destination (foreign)

def slotStore (addr : Address) (w : Key × Nat) : Call :=
  .store (.ofNat (addr.toNat + w.2 * keySize)) (Bytes.ofWord w.1)

theorem writeKey_eq_answer (h : addr.toNat + slot * keySize < wordSize)
    (hkey : (foreign a addr).writeKey slot key = (.ok (), foreign b addr)) :
    (a.answer (slotStore addr (key, slot))).2 = b := by
  simp only [Destination.writeKey, Destination.slotAddress_of_lt h] at hkey
  simp only [answer, slotStore]
  generalize a.store (.ofNat (addr.toNat + slot * keySize)) (Bytes.ofWord key) = result at hkey ⊢
  obtain ⟨fault | _, c⟩ := result
  · cases hkey
  · cases hkey
    rfl

theorem writeEach_cons {w : Key × Nat} {order : List (Key × Nat)}
    (h : addr.toNat + w.2 * keySize < wordSize)
    (hkey : (foreign a addr).writeKey w.2 w.1 = (.ok (), foreign b addr))
    (hrest : (foreign b addr).writeEach order = (.ok (), foreign c addr) ∧
      b.after (order.map (slotStore addr)) = c) :
    (foreign a addr).writeEach (w :: order) = (.ok (), foreign c addr) ∧
      a.after ((w :: order).map (slotStore addr)) = c := by
  obtain ⟨hwrites, hafter⟩ := hrest
  refine ⟨by simp only [Destination.writeEach, hkey, hwrites], ?_⟩
  simp only [after, List.map_cons, List.foldl_cons] at hafter ⊢
  rw [writeKey_eq_answer h hkey, hafter]

theorem Overwritten.unique {pos : Nat} {bs : Bytes} (hb : a.Overwritten pos bs b)
    (hc : a.Overwritten pos bs c) : b = c := by
  have hmemory : b.memory = c.memory := by
    apply Array.ext_getElem?
    intro i
    by_cases hi : i < a.size
    · rw [hb.bytes i hi, hc.bytes i hi]
    · have hib : b.memory.size ≤ i := Nat.le_trans (Nat.le_of_eq hb.size) (Nat.not_lt.1 hi)
      have hic : c.memory.size ≤ i := Nat.le_trans (Nat.le_of_eq hc.size) (Nat.not_lt.1 hi)
      rw [Array.getElem?_eq_none hib, Array.getElem?_eq_none hic]
  have hbase : b.base = c.base := hb.base.trans hc.base.symm
  cases b
  cases c
  cases hbase
  cases hmemory
  rfl

theorem overwritten_self {bs : Bytes} {len : Nat} (h : a.load addr len = .ok bs) :
    Mapped a.base a.size addr len ∧ a.Overwritten addr.toNat bs a := by
  have hlen : bs.length = len := length_of_load h
  unfold load at h
  cases hw : a.window addr len with
  | error fault => simp [hw] at h
  | ok start =>
    obtain ⟨hstart, hfit⟩ := window_eq_ok.1 hw
    simp only [hw, Except.ok.injEq] at h
    refine ⟨⟨by omega, by omega⟩, rfl, rfl, fun i _ => ?_⟩
    split
    · next hin =>
      have hidx : start + (a.base.toNat + i - addr.toNat) = i := by omega
      rw [← h]
      change _ = (a.slice start len)[_]?
      rw [getElem?_slice hfit (by omega), hidx]
    · rfl

theorem Overwritten.again (h : a.Overwritten addr.toNat (ks.flatMap Bytes.ofWord) a)
    (hkey : ks[slot]? = some key) :
    a.Overwritten (addr.toNat + slot * keySize) (Bytes.ofWord key) a where
  base := rfl
  size := rfl
  bytes i hi := by
    have hlen : (Bytes.ofWord key).length = keySize := Bytes.length_ofWord key
    split
    · next hin =>
      rw [hlen] at hin
      have hend := slot_end_le (List.getElem?_eq_some_iff.1 hkey).1
      have hidx : a.base.toNat + i - addr.toNat =
          slot * keySize + (a.base.toNat + i - (addr.toNat + slot * keySize)) := by omega
      rw [h.bytes i hi, if_pos (by rw [length_flatMap_ofWord]; omega), hidx,
        getElem?_flatMap_ofWord hkey (by omega)]
    · rfl

/-- Writing back one of the keys of a list that was loaded changes nothing; it fails only if there
is no address for its slot. -/
theorem writeKey_of_load (hload : a.load addr (ks.length * keySize) = .ok (ks.flatMap Bytes.ofWord))
    (hkey : ks[slot]? = some key) :
    ((foreign a addr).writeKey slot key).2 = foreign a addr ∧
      (addr.toNat + slot * keySize < wordSize →
        (foreign a addr).writeKey slot key = (.ok (), foreign a addr)) := by
  obtain ⟨hm, hself⟩ := overwritten_self hload
  by_cases hslot : a.TakesSlot addr slot
  · obtain ⟨b, hwrite, hb⟩ := Destination.writeKey_of_takesSlot hslot key
    obtain rfl := hb.unique (hself.again hkey)
    exact ⟨congrArg Prod.snd hwrite, fun _ => hwrite⟩
  · rw [Destination.writeKey_of_not_takesSlot hslot]
    refine ⟨rfl, fun hlt => absurd ⟨hlt, ?_⟩ hslot⟩
    have hend := slot_end_le (List.getElem?_eq_some_iff.1 hkey).1
    obtain ⟨hle, hfit⟩ := hm
    omega

theorem writeEach_of_load {order : List (Key × Nat)}
    (hload : a.load addr (ks.length * keySize) = .ok (ks.flatMap Bytes.ofWord))
    (hkeys : ∀ w ∈ order, ks[w.2]? = some w.1) :
    ((foreign a addr).writeEach order).2 = foreign a addr ∧
      ((∀ w ∈ order, addr.toNat + w.2 * keySize < wordSize) →
        (foreign a addr).writeEach order = (.ok (), foreign a addr) ∧
          a.after (order.map (slotStore addr)) = a) := by
  induction order with
  | nil => exact ⟨rfl, fun _ => ⟨rfl, rfl⟩⟩
  | cons w order ih =>
    obtain ⟨hsame, hok⟩ := writeKey_of_load hload (hkeys w List.mem_cons_self)
    obtain ⟨ihsame, ihok⟩ := ih fun w' hw' => hkeys w' (List.mem_cons_of_mem _ hw')
    refine ⟨?_, fun haddr => ?_⟩
    · rw [Destination.writeEach]
      generalize (foreign a addr).writeKey w.2 w.1 = result at hsame ⊢
      obtain ⟨fault | _, dst⟩ := result
      · exact hsame
      · cases hsame
        exact ihsame
    · have hfirst := haddr w List.mem_cons_self
      exact writeEach_cons hfirst (hok hfirst)
        (ihok fun w' hw' => haddr w' (List.mem_cons_of_mem _ hw'))

def InSlot (addr : Address) (slot pos : Nat) : Prop :=
  addr.toNat + slot * keySize ≤ pos ∧ pos < addr.toNat + slot * keySize + keySize

instance (addr : Address) (slot pos : Nat) : Decidable (InSlot addr slot pos) :=
  inferInstanceAs (Decidable (_ ∧ _))

theorem exists_inSlot_iff {n pos : Nat} :
    (∃ slot < n, InSlot addr slot pos) ↔
      addr.toNat ≤ pos ∧ pos < addr.toNat + n * keySize := by
  constructor
  · rintro ⟨slot, hslot, hfrom, hto⟩
    have hend := slot_end_le hslot
    omega
  · rintro ⟨hfrom, hto⟩
    have hdiv := Nat.div_add_mod' (pos - addr.toNat) keySize
    have hmod : (pos - addr.toNat) % keySize < keySize := Nat.mod_lt _ (by decide)
    have hslot : (pos - addr.toNat) / keySize < n :=
      Nat.div_lt_of_lt_mul (by rw [Nat.mul_comm]; omega)
    exact ⟨(pos - addr.toNat) / keySize, hslot, by omega, by omega⟩

/-- `b` is `a` with some keys of a list in their slots and with nothing else changed. -/
structure Filled (a : Arena) (addr : Address) (ks : List Key) (writes : List (Key × Nat))
    (b : Arena) : Prop where
  base : b.base = a.base
  size : b.size = a.size
  bytes : ∀ i < a.size, b.memory[i]? =
    if ∃ w ∈ writes, InSlot addr w.2 (a.base.toNat + i) then
      (ks.flatMap Bytes.ofWord)[a.base.toNat + i - addr.toNat]?
    else
      a.memory[i]?

/-- The slots of one list do not come into one another's way: what is written later leaves a slot
alone, or puts the same key there. -/
theorem Filled.cons {w : Key × Nat} {writes : List (Key × Nat)} (hkey : ks[w.2]? = some w.1)
    (hb : a.Overwritten (addr.toNat + w.2 * keySize) (Bytes.ofWord w.1) b)
    (hc : b.Filled addr ks writes c) : a.Filled addr ks (w :: writes) c where
  base := hc.base.trans hb.base
  size := hc.size.trans hb.size
  bytes i hi := by
    have hlen : (Bytes.ofWord w.1).length = keySize := Bytes.length_ofWord w.1
    have hold := hc.bytes i (hb.size.symm ▸ hi)
    rw [hb.base] at hold
    rw [hold]
    simp only [List.mem_cons, exists_eq_or_imp]
    by_cases hlater : ∃ w' ∈ writes, InSlot addr w'.2 (a.base.toNat + i)
    · rw [if_pos hlater, if_pos (.inr hlater)]
    · have hnew : b.memory[i]? = if InSlot addr w.2 (a.base.toNat + i) then
          (Bytes.ofWord w.1)[a.base.toNat + i - (addr.toNat + w.2 * keySize)]? else a.memory[i]? := by
        rw [hb.bytes i hi, hlen]
        rfl
      rw [if_neg hlater, hnew]
      by_cases hin : InSlot addr w.2 (a.base.toNat + i)
      · obtain ⟨hfrom, hto⟩ := hin
        have hidx : a.base.toNat + i - addr.toNat =
            w.2 * keySize + (a.base.toNat + i - (addr.toNat + w.2 * keySize)) := by omega
        rw [if_pos ⟨hfrom, hto⟩, if_pos (.inl ⟨hfrom, hto⟩), hidx,
          getElem?_flatMap_ofWord hkey (by omega)]
      · rw [if_neg hin, if_neg (not_or.2 ⟨hin, hlater⟩)]

theorem writeEach_of_takesSlot {order : List (Key × Nat)}
    (hkeys : ∀ w ∈ order, ks[w.2]? = some w.1) (hslots : ∀ w ∈ order, a.TakesSlot addr w.2) :
    ∃ b, (foreign a addr).writeEach order = (.ok (), foreign b addr) ∧
      a.after (order.map (slotStore addr)) = b ∧ a.Filled addr ks order b := by
  induction order generalizing a with
  | nil => exact ⟨a, rfl, rfl, rfl, rfl, fun i _ => by simp⟩
  | cons w order ih =>
    have hslot : a.TakesSlot addr w.2 := hslots w List.mem_cons_self
    obtain ⟨b, hwrite, hb⟩ := Destination.writeKey_of_takesSlot hslot w.1
    obtain ⟨c, hrest, hafter, hc⟩ := ih (a := b)
      (fun w' hw' => hkeys w' (List.mem_cons_of_mem _ hw'))
      (fun w' hw' => hb.takesSlot_iff.2 (hslots w' (List.mem_cons_of_mem _ hw')))
    obtain ⟨hwrites, hstores⟩ := writeEach_cons hslot.1 hwrite ⟨hrest, hafter⟩
    exact ⟨c, hwrites, hstores, hc.cons (hkeys w List.mem_cons_self) hb⟩

theorem Filled.overwritten {order : List (Key × Nat)} (h : a.Filled addr ks order b)
    (hall : ∀ w, w ∈ order ↔ w ∈ ks.zipIdx) :
    a.Overwritten addr.toNat (ks.flatMap Bytes.ofWord) b where
  base := h.base
  size := h.size
  bytes i hi := by
    have hcovers : (∃ w ∈ order, InSlot addr w.2 (a.base.toNat + i)) ↔
        addr.toNat ≤ a.base.toNat + i ∧
          a.base.toNat + i < addr.toNat + (ks.flatMap Bytes.ofWord).length := by
      rw [length_flatMap_ofWord, ← exists_inSlot_iff]
      constructor
      · rintro ⟨w, hw, hin⟩
        have hkey := List.mem_zipIdx_iff_getElem?.1 ((hall w).1 hw)
        exact ⟨w.2, (List.getElem?_eq_some_iff.1 hkey).1, hin⟩
      · rintro ⟨slot, hslot, hin⟩
        exact ⟨(ks[slot], slot), (hall _).2
          (List.mem_zipIdx_iff_getElem?.2 (List.getElem?_eq_getElem hslot)), hin⟩
    rw [h.bytes i hi]
    exact if_congr hcovers rfl rfl

theorem loadKeys_of_le (h : wordSize ≤ count * keySize) :
    a.loadKeys addr count = .error ⟨addr, maxWord⟩ := by
  simp only [loadKeys, Word.mul, if_neg (Nat.not_lt.2 h)]

theorem loadKeys_of_lt (h : count * keySize < wordSize) :
    a.loadKeys addr count = (a.load addr (count * keySize)).map (Bytes.words count) := by
  simp only [loadKeys, Word.mul, if_pos h]

theorem loadKeys_eq_ok :
    a.loadKeys addr count = .ok ks ↔
      ks.length = count ∧ a.load addr (count * keySize) = .ok (ks.flatMap Bytes.ofWord) := by
  by_cases hlt : count * keySize < wordSize
  · rw [loadKeys_of_lt hlt]
    cases hload : a.load addr (count * keySize) with
    | error fault => simp [Except.map]
    | ok bs =>
      have hlen : bs.length = count * 8 := length_of_load hload
      simp only [Except.map, Except.ok.injEq]
      constructor
      · rintro rfl
        exact ⟨Bytes.length_words count bs, (Bytes.flatMap_words hlen).symm⟩
      · rintro ⟨rfl, rfl⟩
        exact words_flatMap_ofWord ks
  · rw [loadKeys_of_le (Nat.not_lt.1 hlt)]
    refine ⟨nofun, fun ⟨_, hload⟩ => ?_⟩
    have hfit : addr.toNat - a.base.toNat + count * keySize ≤ a.size := (overwritten_self hload).1.2
    have hsize : a.size < wordSize := a.size_lt
    omega

/-- What readers and writers of lists of keys at an address can rely on. -/
structure CarriesKeys (a : Arena) (addr : Address) : Prop where
  /-- A list that is longer than any memory is not looked for. -/
  tooLong : ∀ count, wordSize ≤ count * keySize →
    a.loadKeys addr count = .error ⟨addr, maxWord⟩
  /-- Any other list faults just if its bytes cannot be loaded, and as they do. -/
  faults : ∀ count, count * keySize < wordSize → ∀ fault, a.loadKeys addr count = .error fault ↔
    fault = ⟨addr, count * keySize⟩ ∧ ∃ f, a.load addr (count * keySize) = .error f
  /-- Else there are as many keys as were asked for, and their words are what is loaded. -/
  keys : ∀ count bs, a.load addr (count * keySize) = .ok bs →
    ∃ ks, a.loadKeys addr count = .ok ks ∧ ks.length = count ∧ ks.flatMap Bytes.ofWord = bs ∧
      ks = bs.wholeWords
  /-- Keys that were put in their slots one by one, in any order and a slot perhaps more than once,
  are read as the list that they make, whether the boundary wrote them or stores to the addresses
  of the slots. An empty list has no slots; its address has to be mapped, or the end of memory. -/
  written : ∀ ks order, (∀ w, w ∈ order ↔ w ∈ ks.zipIdx) →
    (∀ slot < ks.length, a.TakesSlot addr slot) → (ks = [] → Mapped a.base a.size addr 0) →
    ∃ b, (foreign a addr).writeEach order = (.ok (), foreign b addr) ∧
      a.after (order.map (slotStore addr)) = b ∧
      a.Overwritten addr.toNat (ks.flatMap Bytes.ofWord) b ∧ b.loadKeys addr ks.length = .ok ks
  /-- Keys that were read can be written back, all or some of them, and nothing changes. Where
  memory goes on behind the last address, a slot that begins there cannot be written. -/
  rewritten : ∀ count ks, a.loadKeys addr count = .ok ks → ∀ order, order ⊆ ks.zipIdx →
    ((foreign a addr).writeEach order).2 = foreign a addr ∧
      ((∀ w ∈ order, addr.toNat + w.2 * keySize < wordSize) →
        (foreign a addr).writeEach order = (.ok (), foreign a addr) ∧
          a.after (order.map (slotStore addr)) = a)

theorem carriesKeys (a : Arena) (addr : Address) : a.CarriesKeys addr where
  tooLong count h := loadKeys_of_le h
  faults count hlt fault := by
    rw [loadKeys_of_lt hlt]
    cases hload : a.load addr (count * keySize) with
    | error f =>
      obtain rfl := load_error hload
      simp [Except.map, eq_comm]
    | ok bs => simp [Except.map]
  keys count bs hload := by
    have hlen : bs.length = count * 8 := length_of_load hload
    have hbytes : (Bytes.words count bs).flatMap Bytes.ofWord = bs := Bytes.flatMap_words hlen
    refine ⟨Bytes.words count bs, loadKeys_eq_ok.2 ⟨Bytes.length_words count bs, ?_⟩,
      Bytes.length_words count bs, hbytes, Bytes.words_eq_wholeWords hlen⟩
    rw [hbytes, hload]
  written ks order hall hslots hempty := by
    have hkeys : ∀ w ∈ order, ks[w.2]? = some w.1 := fun w hw =>
      List.mem_zipIdx_iff_getElem?.1 ((hall w).1 hw)
    obtain ⟨b, hwrite, hafter, hb⟩ := writeEach_of_takesSlot hkeys fun w hw =>
      hslots w.2 (List.getElem?_eq_some_iff.1 (hkeys w hw)).1
    have hover := hb.overwritten hall
    have hm : Mapped a.base a.size addr (ks.length * keySize) := by
      by_cases hnil : ks = []
      · subst hnil
        exact hempty rfl
      · exact mapped_of_takesSlot (List.length_pos_iff.2 hnil) hslots
    exact ⟨b, hwrite, hafter, hover, hover.loadKeys hm⟩
  rewritten count ks hkeys order hsub := by
    obtain ⟨rfl, hload⟩ := loadKeys_eq_ok.1 hkeys
    exact writeEach_of_load hload fun w hw => List.mem_zipIdx_iff_getElem?.1 (hsub hw)

/-- Three keys are put in slots that no word could be aligned to, the last one first; and of three
keys that are read across the last address, the last one has no address to be written back to. -/
theorem carriesKeys_unaligned :
    (∃ b, (foreign (zeroed 100 40) 103).writeEach [(3, 2), (1, 0), (2, 1)] =
        (.ok (), foreign b 103) ∧
      b.loadKeys 103 3 = .ok [1, 2, 3]) ∧
    (zeroed (-12) 24).loadKeys (-12) 3 = .ok [0, 0, 0] ∧
    (foreign (zeroed (-12) 24) (-12)).writeEach [(0, 1), (0, 0)] =
      (.ok (), foreign (zeroed (-12) 24) (-12)) ∧
    ((foreign (zeroed (-12) 24) (-12)).writeEach [(0, 1), (0, 2)]).2 =
      foreign (zeroed (-12) 24) (-12) := by
  have hslots : ∀ slot < 3, (zeroed 100 40).TakesSlot 103 slot := by decide
  have hperm : [(3, 2), (1, 0), (2, 1)].Perm ([1, 2, 3] : List Key).zipIdx := by decide
  have hkeys : (zeroed (-12) 24).loadKeys (-12) 3 = .ok [0, 0, 0] := by decide +kernel
  obtain ⟨b, hwrite, -, -, hread⟩ := (carriesKeys (zeroed 100 40) 103).written [1, 2, 3] _
    (fun _ => hperm.mem_iff) hslots nofun
  have hback := (carriesKeys (zeroed (-12) 24) (-12)).rewritten 3 _ hkeys
  exact ⟨⟨b, hwrite, hread⟩, hkeys, ((hback [(0, 1), (0, 0)] (by decide)).2 (by decide)).1,
    (hback [(0, 1), (0, 2)] (by decide)).1⟩

end Arena

end SnapshotStore
