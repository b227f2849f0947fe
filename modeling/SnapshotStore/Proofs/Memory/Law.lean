import Mathlib.Data.List.Induction
import SnapshotStore.Proofs.Memory.Windows

namespace SnapshotStore.Arena

/-- A transfer between an arena and the memory of its host. -/
inductive Call where
  | store (addr : Address) (bs : Bytes)
  | copyOut (addr : Address) (bs : Bytes)
  | load (addr : Address) (len : Nat)
  | copyIn (addr : Address) (buffer : Bytes)
  deriving DecidableEq, Repr

inductive Reply where
  | stored (result : Except CopyFault Unit)
  | loaded (result : Except CopyFault Bytes)
  | filled (result : Except CopyFault Unit) (buffer : Bytes)

def answer (a : Arena) : Call → Reply × Arena
  | .store addr bs => ((a.store addr bs).map .stored id)
  | .copyOut addr bs => ((a.copyOut addr bs).map .stored id)
  | .load addr len => (.loaded (a.load addr len), a)
  | .copyIn addr buffer => (.filled (a.copyIn addr buffer).1 (a.copyIn addr buffer).2, a)

def after (a : Arena) (calls : List Call) : Arena := calls.foldl (fun a call => (a.answer call).2) a

/-- The bytes from `addr` on lie between the ends of a memory, by unbounded arithmetic. -/
def Mapped (base : Address) (size : Nat) (addr : Address) (len : Nat) : Prop :=
  base.toNat ≤ addr.toNat ∧ addr.toNat - base.toNat + len ≤ size

instance (base : Address) (size : Nat) (addr : Address) (len : Nat) :
    Decidable (Mapped base size addr len) :=
  inferInstanceAs (Decidable (_ ∧ _))

namespace Call

def addr : Call → Address
  | .store addr _ | .copyOut addr _ | .load addr _ | .copyIn addr _ => addr

def len : Call → Nat
  | .store _ bs | .copyOut _ bs => bs.length
  | .load _ len => len
  | .copyIn _ buffer => buffer.length

/-- What a call has put at a position of the address space: nothing, unless it is a write that does
not fault and that covers the position. -/
def byte? (base : Address) (size pos : Nat) : Call → Option UInt8
  | .store addr bs | .copyOut addr bs =>
    if Mapped base size addr bs.length ∧ addr.toNat ≤ pos then bs[pos - addr.toNat]? else none
  | .load _ _ | .copyIn _ _ => none

end Call

/-- The byte that the last of the calls to do so has put at a position, or zero. -/
def lastWritten (base : Address) (size : Nat) (calls : List Call) (pos : Nat) : UInt8 :=
  (calls.reverse.findSome? (Call.byte? base size pos)).getD 0

def recalled (base : Address) (size : Nat) (calls : List Call) (addr : Address) (len : Nat) :
    Bytes :=
  (List.range len).map fun i => lastWritten base size calls (addr.toNat + i)

/-- What memory has to answer to a call, told from the calls before it alone. -/
def lawful (base : Address) (size : Nat) (calls : List Call) : Call → Reply
  | .store addr bs | .copyOut addr bs =>
    .stored (if Mapped base size addr bs.length then .ok () else .error ⟨addr, bs.length⟩)
  | .load addr len =>
    .loaded (if Mapped base size addr len then .ok (recalled base size calls addr len)
      else .error ⟨addr, len⟩)
  | .copyIn addr buffer =>
    if Mapped base size addr buffer.length then
      .filled (.ok ()) (recalled base size calls addr buffer.length)
    else
      .filled (.error ⟨addr, buffer.length⟩) buffer

variable {a : Arena} {base : Address} {size : Nat} {calls : List Call}

/-- The checks on machine words come to the same as unbounded arithmetic. -/
theorem window_eq (a : Arena) (addr : Address) (len : Nat) :
    a.window addr len =
      if Mapped a.base a.size addr len then .ok (addr.toNat - a.base.toNat)
      else .error ⟨addr, len⟩ := by
  by_cases h : Mapped a.base a.size addr len
  · rw [if_pos h, window_eq_ok]
    exact ⟨Nat.add_sub_of_le h.1, h.2⟩
  · rw [if_neg h]
    cases hw : a.window addr len with
    | ok start =>
      obtain ⟨hstart, hlen⟩ := window_eq_ok.1 hw
      exact absurd ⟨by omega, by omega⟩ h
    | error fault =>
      unfold window at hw
      grind

theorem load_error {addr : Address} {len : Nat} {fault : CopyFault}
    (h : a.load addr len = .error fault) : fault = ⟨addr, len⟩ := by
  by_cases hm : Mapped a.base a.size addr len
  · simp only [load, window_eq, if_pos hm] at h
    cases h
  · simp only [load, window_eq, if_neg hm] at h
    cases h
    rfl

theorem lastWritten_concat (call : Call) (pos : Nat) :
    lastWritten base size (calls ++ [call]) pos =
      (call.byte? base size pos).getD (lastWritten base size calls pos) := by
  rw [lastWritten, lastWritten, List.reverse_concat, List.findSome?_cons]
  cases call.byte? base size pos <;> rfl

/-- Each byte of an arena is the one that was written last. -/
structure Recalls (a : Arena) (base : Address) (size : Nat) (calls : List Call) : Prop where
  base_eq : a.base = base
  size_eq : a.size = size
  bytes : ∀ i < size, a.memory[i]? = some (lastWritten base size calls (base.toNat + i))

theorem recalls_zeroed (base : Address) (size : UInt64) :
    (zeroed base size).Recalls base size.toNat [] where
  base_eq := rfl
  size_eq := by simp [zeroed, Arena.size]
  bytes i hi := by simp [zeroed, lastWritten, hi]

namespace Recalls

variable (h : a.Recalls base size calls)

include h

theorem window_eq (addr : Address) (len : Nat) :
    a.window addr len =
      if Mapped base size addr len then .ok (addr.toNat - base.toNat) else .error ⟨addr, len⟩ := by
  rw [Arena.window_eq, h.base_eq, h.size_eq]

theorem load_eq (addr : Address) (len : Nat) :
    a.load addr len =
      if Mapped base size addr len then .ok (recalled base size calls addr len)
      else .error ⟨addr, len⟩ := by
  by_cases hm : Mapped base size addr len
  · have hfit : addr.toNat - base.toNat + len ≤ a.size := h.size_eq ▸ hm.2
    have hbytes : a.slice (addr.toNat - base.toNat) len = recalled base size calls addr len := by
      apply List.ext_getElem?
      intro i
      by_cases hi : i < len
      · have hpos : base.toNat + (addr.toNat - base.toNat + i) = addr.toNat + i := by
          rw [← Nat.add_assoc, Nat.add_sub_of_le hm.1]
        rw [getElem?_slice hfit hi, h.bytes _ (by have := hm.2; omega), hpos]
        simp [recalled, hi]
      · rw [List.getElem?_eq_none (by rw [length_slice hfit]; omega),
          List.getElem?_eq_none (by simp [recalled]; omega)]
    simp only [load, h.window_eq, if_pos hm, ← hbytes, slice]
  · simp only [load, h.window_eq, if_neg hm]

theorem keep {call : Call} (hnone : ∀ pos, call.byte? base size pos = none) :
    a.Recalls base size (calls ++ [call]) where
  base_eq := h.base_eq
  size_eq := h.size_eq
  bytes i hi := by rw [h.bytes i hi, lastWritten_concat, hnone, Option.getD_none]

theorem store {addr : Address} {bs : Bytes} {call : Call}
    (hcall : ∀ pos, call.byte? base size pos = (Call.store addr bs).byte? base size pos) :
    (a.store addr bs).2.Recalls base size (calls ++ [call]) := by
  by_cases hm : Mapped base size addr bs.length
  · have hfit : addr.toNat - base.toNat + bs.length ≤ a.size := h.size_eq ▸ hm.2
    have hstore : (a.store addr bs).2 = a.write (addr.toNat - base.toNat) bs := by
      simp only [Arena.store, h.window_eq, if_pos hm, write]
    rw [hstore]
    refine ⟨h.base_eq, size_write.trans h.size_eq, fun i hi => ?_⟩
    rw [write, getElem?_overwrite _ _ _ hfit, h.bytes i hi, lastWritten_concat, hcall]
    have hle := hm.1
    -- a position is covered by the new bytes, or keeps what it had
    by_cases hin : addr.toNat - base.toNat ≤ i ∧ i < addr.toNat - base.toNat + bs.length
    · have hpos : base.toNat + i - addr.toNat = i - (addr.toNat - base.toNat) := by omega
      rw [if_pos hin, Call.byte?, if_pos ⟨hm, by omega⟩, hpos,
        List.getElem?_eq_getElem (by omega), Option.getD_some]
    · have hnone : (Call.store addr bs).byte? base size (base.toNat + i) = none := by
        simp only [Call.byte?, ite_eq_right_iff]
        exact fun hc => List.getElem?_eq_none (by omega)
      rw [if_neg hin, hnone, Option.getD_none]
  · have hstore : (a.store addr bs).2 = a := by
      simp only [Arena.store, h.window_eq, if_neg hm]
    rw [hstore]
    exact h.keep fun pos => by rw [hcall, Call.byte?, if_neg fun hc => hm hc.1]

theorem answer (call : Call) : (a.answer call).2.Recalls base size (calls ++ [call]) := by
  cases call with
  | store addr bs => exact h.store fun _ => rfl
  | copyOut addr bs => exact h.store fun _ => rfl
  | load addr len => exact h.keep fun _ => rfl
  | copyIn addr buffer => exact h.keep fun _ => rfl

theorem reply_eq (call : Call) : (a.answer call).1 = lawful base size calls call := by
  have hstore : ∀ addr bs, (a.store addr bs).1 =
      if Mapped base size addr bs.length then .ok () else .error ⟨addr, bs.length⟩ := by
    intro addr bs
    by_cases hm : Mapped base size addr bs.length
    · simp only [Arena.store, h.window_eq, if_pos hm]
    · simp only [Arena.store, h.window_eq, if_neg hm]
  cases call with
  | store addr bs => exact congrArg Reply.stored (hstore addr bs)
  | copyOut addr bs => exact congrArg Reply.stored (hstore addr bs)
  | load addr len => exact congrArg Reply.loaded (h.load_eq addr len)
  | copyIn addr buffer =>
    by_cases hm : Mapped base size addr buffer.length
    · simp only [Arena.answer, copyIn, h.load_eq, lawful, if_pos hm]
    · simp only [Arena.answer, copyIn, h.load_eq, lawful, if_neg hm]

theorem answer_of_not_mapped {call : Call} (hm : ¬ Mapped base size call.addr call.len) :
    (a.answer call).2 = a := by
  cases call with
  | store addr bs | copyOut addr bs =>
    have hw : a.window addr bs.length = .error ⟨addr, bs.length⟩ := by
      rw [h.window_eq]
      exact if_neg hm
    simp only [Arena.answer, copyOut, Arena.store, hw, Prod.map_apply, id_eq]
  | load addr len | copyIn addr buffer => rfl

end Recalls

theorem recalls_after (base : Address) (size : UInt64) (calls : List Call) :
    ((zeroed base size).after calls).Recalls base size.toNat calls := by
  induction calls using List.reverseRecOn with
  | nil => exact recalls_zeroed base size
  | append_singleton calls call ih =>
    rw [after, List.foldl_concat]
    exact ih.answer call

/-- What the users of an arena can rely on after some calls. -/
structure Obeys (a : Arena) (base : Address) (size : Nat) (calls : List Call) : Prop where
  /-- The window neither moves nor changes its size. -/
  window_eq : a.base = base ∧ a.size = size
  /-- A call succeeds just if its range is mapped, and a read yields what was written last. -/
  replies : ∀ call, (a.answer call).1 = lawful base size calls call
  /-- A call that faults changes nothing. -/
  unchanged : ∀ call, ¬ Mapped base size call.addr call.len → (a.answer call).2 = a
  /-- The positions that a call works on are those of the memory. -/
  inside : ∀ addr len start, a.window addr len = .ok start →
    base.toNat + start = addr.toNat ∧ start + len ≤ a.memory.size
  /-- A transfer of nothing succeeds at the end of the window too. -/
  empty : ∀ addr, (∃ start, a.window addr 0 = .ok start) ↔
    base.toNat ≤ addr.toNat ∧ addr.toNat ≤ base.toNat + size

theorem after_obeys (base : Address) (size : UInt64) (calls : List Call) :
    ((zeroed base size).after calls).Obeys base size.toNat calls := by
  have h := recalls_after base size calls
  refine ⟨⟨h.base_eq, h.size_eq⟩, h.reply_eq, fun call => h.answer_of_not_mapped,
    fun addr len start hw => ?_, fun addr => ?_⟩
  · have hin := window_eq_ok.1 hw
    rwa [h.base_eq] at hin
  · simp only [window_eq_ok, h.base_eq, h.size_eq]
    constructor
    · rintro ⟨start, hstart, hlen⟩
      omega
    · rintro ⟨hle, hend⟩
      exact ⟨addr.toNat - base.toNat, by omega, by omega⟩

/-- A window that reaches past the last address: bytes behind it are mapped, the addresses after
it are not those from zero on. -/
example :
    ((zeroed (-4) 8).after [.store (-2) [1, 2, 3, 4], .copyOut (-1) [9], .store 0 [7]]).load (-3) 5 =
      .ok [0, 1, 9, 3, 4] := by
  decide +kernel

end SnapshotStore.Arena
