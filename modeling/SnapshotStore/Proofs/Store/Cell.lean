import Mathlib.Logic.Function.Basic
import SnapshotStore.Proofs.Store.WellFormed

namespace SnapshotStore

/-- Where an entry may be. -/
abbrev Cell := GroupId × Key

namespace Store

/-- The entry in a cell; the group of the cell need not be handed out. -/
def held (s : Store) (c : Cell) : Option Entry :=
  s.groups[c.1.slot]?.bind fun g => g.index.get? c.2

/-- `t` is `s` after a write that has left `next` in the cell `c`. -/
structure Sets (s : Store) (c : Cell) (next : Option Entry) (t : Store) : Prop where
  config : t.config = s.config
  allocated : t.allocated = s.allocated
  reclaimer : t.reclaimer =
    { s.reclaimer with counts := s.reclaimer.counts.retire (s.held c).isSome }
  held : t.held = Function.update s.held c next

variable {config : Config} {s t : Store} {id : GroupId} {g : Group} {key : Key}

theorem held_of_group (hg : s.group id = .ok g) (key : Key) :
    s.held (id, key) = g.index.get? key := by
  simp only [held, (group_eq_ok.1 hg).2, Option.bind_some]

theorem Sets.publish (hg : s.group id = .ok g) {ix : Index} {next : Option Entry} {gaveWay : Bool}
    (hget : ∀ other, ix.get? other = if other = key then next else g.index.get? other)
    (hgave : gaveWay = (g.index.get? key).isSome) :
    s.Sets (id, key) next (s.publish id ix gaveWay) where
  config := rfl
  allocated := rfl
  reclaimer := by
    rw [held_of_group hg, ← hgave]
    rfl
  held := by
    funext ⟨id', other⟩
    have hslot := (group_eq_ok.1 hg).2
    simp only [Function.update_apply, Store.held, getElem?_publish]
    by_cases hid : id' = id
    · subst hid
      simp only [↓reduceIte, hslot, Option.map_some, Option.bind_some, hget, Prod.mk.injEq,
        true_and]
    · have hne : id.slot ≠ id'.slot := fun heq => hid (GroupId.slot_inj heq.symm)
      simp only [hne, ↓reduceIte, Prod.mk.injEq, hid, false_and]

theorem put_sets (hs : s.WellFormed config) (hg : s.group id = .ok g) (key : Key) {payload : Bytes}
    (hlen : payload.length ≤ s.config.maxEntryLen) (hroom : reserve payload.length = .ok ()) :
    ∃ t, s.put id key payload = (.ok (.ofReplaced (s.held (id, key))), t) ∧
      s.Sets (id, key) (some ⟨id, key, payload⟩) t ∧ t.WellFormed config := by
  have hascending := hs.ascending hg
  have hgave := Index.upsert_snd hascending ⟨id, key, payload⟩
  refine ⟨_, ?_, .publish hg (Index.get?_upsert hascending ⟨id, key, payload⟩) (congrArg _ hgave),
    hs.put hg rfl hlen _⟩
  rw [put_of_group hg hlen hroom, held_of_group hg, hgave]

theorem getElem?_eq_of_held (hs : s.WellFormed config) (ht : t.WellFormed config) {n : Nat}
    (h : ∀ key, s.held (.ofSlot n, key) = t.held (.ofSlot n, key)) :
    s.groups[n]? = t.groups[n]? := by
  have hlen : s.groups.length = t.groups.length := hs.length.trans ht.length.symm
  by_cases hn : n < s.groups.length
  · have hlimit := hs.le_limit
    have hslot : (GroupId.ofSlot n).slot = n := by
      apply GroupId.slot_ofSlot
      simp only [groupLimit] at hlimit
      omega
    have hgs := List.getElem?_eq_getElem hn
    have hgt := List.getElem?_eq_getElem (hlen ▸ hn)
    have hfs := hs.groups _ _ hgs
    have hft := ht.groups _ _ hgt
    have hindex : s.groups[n].index = t.groups[n].index := by
      refine Index.eq_of_get?_eq hfs.ascending hft.ascending fun key => ?_
      have hkey := h key
      simpa only [held, hslot, hgs, hgt, Option.bind_some] using hkey
    have hid : s.groups[n].id = t.groups[n].id := GroupId.slot_inj (hfs.id.trans hft.id.symm)
    have hgroup : s.groups[n] = t.groups[n] := by
      cases hg : s.groups[n]
      cases hg' : t.groups[n]
      simp_all
    rw [hgs, hgt, hgroup]
  · rw [List.getElem?_eq_none (Nat.not_lt.1 hn), List.getElem?_eq_none (hlen ▸ Nat.not_lt.1 hn)]

theorem groups_eq_of_held (hs : s.WellFormed config) (ht : t.WellFormed config)
    (h : s.held = t.held) : s.groups = t.groups := by
  apply List.ext_getElem?
  exact fun n => getElem?_eq_of_held hs ht fun key => congrFun h _

theorem group_eq_of_held (hs : s.WellFormed config) (ht : t.WellFormed config)
    (hallocated : s.allocated = t.allocated) (h : ∀ key, s.held (id, key) = t.held (id, key)) :
    s.group id = t.group id := by
  have hget : s.groups[id.slot]? = t.groups[id.slot]? :=
    getElem?_eq_of_held hs ht fun key => by rw [GroupId.ofSlot_slot, h]
  rw [group, group, hallocated, hget]

/-- What a well-formed store is: a counter, what it has retired, and what its cells hold. -/
theorem eq_of_held (hs : s.WellFormed config) (ht : t.WellFormed config)
    (hallocated : s.allocated = t.allocated) (hreclaimer : s.reclaimer = t.reclaimer)
    (hheld : s.held = t.held) : s = t := by
  have hgroups := groups_eq_of_held hs ht hheld
  have hconfig : s.config = t.config := hs.config_eq.trans ht.config_eq.symm
  cases s
  cases t
  simp_all

end Store

end SnapshotStore
