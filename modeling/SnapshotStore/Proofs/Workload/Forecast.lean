import Mathlib.Data.Finset.Basic
import SnapshotStore.Proofs.Index.KeySet
import SnapshotStore.Proofs.Workload.Clean

namespace SnapshotStore

theorem Xorshift.skip_succ (n : Nat) (g : Xorshift) : skip (n + 1) g = (skip n g).draw.2 := by
  induction n generalizing g with
  | zero => rfl
  | succ n ih => exact ih g.draw.2

theorem Store.keySet_publish {s : Store} {id : GroupId} {g g' : Group} (hg : s.group id = .ok g)
    {ix : Index} {f : Finset Key → Finset Key} (hf : ix.keySet = f g.index.keySet) {gaveWay : Bool}
    {m : Nat} (hg' : (s.publish id ix gaveWay).groups[m]? = some g') :
    ∃ old, s.groups[m]? = some old ∧ g'.index.keySet =
      if id.slot = m then f old.index.keySet else old.index.keySet := by
  obtain ⟨-, hget⟩ := group_eq_ok.1 hg
  obtain ⟨old, rfl, hold, rfl⟩ | ⟨hm, hold⟩ := publish_cases hg'
  · obtain rfl : g = old := Option.some.inj (hget.symm.trans hold)
    exact ⟨g, hold, by rw [if_pos rfl, hf]⟩
  · exact ⟨g', hold, (if_neg hm).symm⟩

namespace Workload

variable (plan : Workload)

def drawn (n k : Nat) : Key := (Xorshift.skip k (.seeded (.ofNat n + 1))).draw.1 % plan.keys

def effect (n k : Nat) (keys : Finset Key) : Finset Key :=
  if plan.removesAt k then keys.erase (plan.drawn n k) else insert (plan.drawn n k) keys

def hits (n k : Nat) (keys : Finset Key) : Nat :=
  if plan.removesAt k ∧ plan.drawn n k ∈ keys then 1 else 0

/-- What groups hold and how many removals have found something, where that follows from how many
operations each writer has issued, in whatever order. -/
structure Forecast where
  keys : (Nat → Nat) → Nat → Finset Key
  found : (Nat → Nat) → Nat
  keys_start : ∀ g, keys (fun _ => 0) g = ∅
  found_start : found (fun _ => 0) = 0
  keys_issue : ∀ {n : Nat}, n < plan.groups * plan.writersPerGroup → ∀ issued g,
    keys (Function.update issued n (issued n + 1)) g =
      if n / plan.writersPerGroup = g then plan.effect n (issued n) (keys issued g)
      else keys issued g
  found_issue : ∀ {n : Nat}, n < plan.groups * plan.writersPerGroup → ∀ issued,
    found (Function.update issued n (issued n + 1)) =
      found issued + plan.hits n (issued n) (keys issued (n / plan.writersPerGroup))

end Workload

namespace Writer

variable {plan : Workload} {n : Nat} {wr : Writer}

/-- Where the writer number `n` stands, as far as its count of operations says. -/
structure At (plan : Workload) (n : Nat) (wr : Writer) : Prop where
  group : wr.group = .ofSlot (n / plan.writersPerGroup)
  rng : wr.rng = .skip wr.issued.toNat (.seeded (.ofNat n + 1))

theorem At.slot (h : wr.At plan n) (hp : plan.Feasible)
    (hn : n < plan.groups * plan.writersPerGroup) : wr.group.slot = n / plan.writersPerGroup := by
  have hlt : n / plan.writersPerGroup < plan.groups :=
    Nat.div_lt_of_lt_mul (by rwa [Nat.mul_comm])
  have hle : plan.groups ≤ 4 := hp.groups_le
  rw [h.group, GroupId.slot_ofSlot (by omega)]

theorem At.draw_fst (h : wr.At plan n) : (wr.draw plan).1 = plan.drawn n wr.issued.toNat := by
  simp only [draw, h.rng, Workload.drawn]

theorem At.draw_snd (h : wr.At plan n) (hlt : wr.issued < plan.opsPerWriter) :
    (wr.draw plan).2.At plan n := by
  refine ⟨h.group, ?_⟩
  have hissued : (wr.draw plan).2.issued.toNat = wr.issued.toNat + 1 := Workload.toNat_succ hlt
  rw [hissued, Xorshift.skip_succ, ← h.rng]
  rfl

section Operated

variable {store : Store} {tally : Tally} {next : Writer × Store × Tally}

theorem Operated.keySet (hop : Operated plan wr store tally next)
    (hs : store.Holds plan.groups plan.Allows) (hwr : wr.At plan n)
    (hlt : wr.issued < plan.opsPerWriter) {m : Nat} {g' : Group}
    (hg' : next.2.1.groups[m]? = some g') :
    ∃ g, store.groups[m]? = some g ∧ g'.index.keySet =
      if wr.group.slot = m then plan.effect n wr.issued.toNat g.index.keySet
      else g.index.keySet := by
  have hkey := hwr.draw_fst
  have hremoves := Workload.removesNext_eq hlt
  cases hop with
  | put g e hnext hg he hdrawn =>
    have hascending := hs.ascending _ _ (Store.group_eq_ok.1 hg).2
    refine Store.keySet_publish hg ?_ hg'
    rw [Index.keySet_upsert hascending, hdrawn, hkey, Workload.effect, ← hremoves, hnext,
      if_neg Bool.false_ne_true]
  | missed g hnext hg hr =>
    obtain ⟨-, hget⟩ := Store.group_eq_ok.1 hg
    have hnot := (Index.remove_eq_none_iff_notMem (hs.ascending _ _ hget)).1 hr
    refine ⟨g', hg', ?_⟩
    split
    · next hm =>
      obtain rfl : g = g' := Option.some.inj ((hm ▸ hget).symm.trans hg')
      rw [Workload.effect, ← hremoves, hnext, if_pos rfl, ← hkey, Finset.erase_eq_of_notMem hnot]
    · rfl
  | removed g ix e hnext hg hr =>
    have hascending := hs.ascending _ _ (Store.group_eq_ok.1 hg).2
    refine Store.keySet_publish hg ?_ hg'
    rw [Index.keySet_remove hascending hr, hkey, Workload.effect, ← hremoves, hnext, if_pos rfl]

theorem Operated.removes (hop : Operated plan wr store tally next)
    (hs : store.Holds plan.groups plan.Allows) (hwr : wr.At plan n)
    (hlt : wr.issued < plan.opsPerWriter) :
    ∃ g, store.groups[wr.group.slot]? = some g ∧ next.2.2.removes =
      tally.removes + .ofNat (plan.hits n wr.issued.toNat g.index.keySet) := by
  have hkey := hwr.draw_fst
  have hremoves := Workload.removesNext_eq hlt
  cases hop with
  | put g e hnext hg he hdrawn =>
    refine ⟨g, (Store.group_eq_ok.1 hg).2, ?_⟩
    have hzero : plan.hits n wr.issued.toNat g.index.keySet = 0 := by
      simp [Workload.hits, ← hremoves, hnext]
    rw [hzero]
    exact (UInt64.add_zero _).symm
  | missed g hnext hg hr =>
    obtain ⟨-, hget⟩ := Store.group_eq_ok.1 hg
    have hnot := (Index.remove_eq_none_iff_notMem (hs.ascending _ _ hget)).1 hr
    refine ⟨g, hget, ?_⟩
    have hzero : plan.hits n wr.issued.toNat g.index.keySet = 0 := by
      simp [Workload.hits, ← hkey, hnot]
    rw [hzero]
    exact (UInt64.add_zero _).symm
  | removed g ix e hnext hg hr =>
    obtain ⟨-, hget⟩ := Store.group_eq_ok.1 hg
    have hmem : (wr.draw plan).1 ∈ g.index.keySet := by
      by_contra hnot
      rw [(Index.remove_eq_none_iff_notMem (hs.ascending _ _ hget)).2 hnot] at hr
      cases hr
    refine ⟨g, hget, ?_⟩
    have hone : plan.hits n wr.issued.toNat g.index.keySet = 1 := by
      simp [Workload.hits, ← hremoves, hnext, ← hkey, hmem]
    rw [hone]
    rfl

end Operated

end Writer

end SnapshotStore
