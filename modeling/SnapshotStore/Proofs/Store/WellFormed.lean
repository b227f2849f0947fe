import SnapshotStore.Proofs.Store.Outcome

namespace SnapshotStore

/-- What holds of the group at position `n` of a store, allocated or not. -/
structure Group.WellFormed (config : Config) (n : Nat) (g : Group) : Prop where
  id : g.id.slot = n
  ascending : g.index.Ascending
  tagged : ∀ e ∈ g.index.toList, e.group.slot = n
  fits : ∀ e ∈ g.index.toList, e.payload.length ≤ config.maxEntryLen

namespace Store

/-- What holds of a store under `config` however it has been used. -/
structure WellFormed (config : Config) (s : Store) : Prop where
  config_eq : s.config = config
  length : s.groups.length = config.maxGroups
  pos : 1 ≤ s.groups.length
  le_limit : s.groups.length ≤ groupLimit
  allocated_le : s.allocated ≤ s.groups.length
  groups : ∀ (n : Nat) (g : Group), s.groups[n]? = some g → g.WellFormed config n
  unused : ∀ (n : Nat) (g : Group), s.groups[n]? = some g → s.allocated ≤ n → g.index = .empty

namespace WellFormed

variable {config : Config} {s : Store} {id : GroupId} {g : Group}

theorem init (h : Store.init config = .ok s) : s.WellFormed config := by
  obtain ⟨hvalid, rfl⟩ := init_eq_ok.1 h
  obtain ⟨hpos, hle⟩ := Config.validate_eq_ok.1 hvalid
  have hgroups : ∀ (n : Nat) (g : Group),
      ((List.range config.maxGroups).map fun n => (⟨.ofSlot n, .empty⟩ : Group))[n]? = some g →
      n < config.maxGroups ∧ g = ⟨.ofSlot n, .empty⟩ := by
    intro n g hg
    obtain ⟨hn, rfl⟩ := List.getElem?_eq_some_iff.1 hg
    simpa using hn
  refine ⟨rfl, by simp, by simpa using hpos, by simpa using hle, Nat.zero_le _, ?_, ?_⟩
  · intro n g hg
    obtain ⟨hn, rfl⟩ := hgroups n g hg
    have hlimit : config.maxGroups ≤ 4 := hle
    exact ⟨GroupId.slot_ofSlot (by omega), Index.ascending_empty, nofun, nofun⟩
  · intro n g hg _
    obtain ⟨-, rfl⟩ := hgroups n g hg
    rfl

theorem exists_group (h : s.WellFormed config) (hid : id.slot < s.allocated) :
    ∃ g, s.groups[id.slot]? = some g ∧ s.group id = .ok g := by
  have hget := List.getElem?_eq_getElem (Nat.lt_of_lt_of_le hid h.allocated_le)
  exact ⟨_, hget, group_eq_ok.2 ⟨hid, hget⟩⟩

theorem allocate (h : s.WellFormed config) (hlt : s.allocated < s.groups.length) :
    WellFormed config { s with allocated := s.allocated + 1 } where
  config_eq := h.config_eq
  length := h.length
  pos := h.pos
  le_limit := h.le_limit
  allocated_le := hlt
  groups := h.groups
  unused n g hg hn := h.unused n g hg (Nat.le_of_succ_le hn)

theorem quiesce (h : s.WellFormed config) (collector : Collector) (held : Bool) :
    (s.quiesce collector held).WellFormed config :=
  ⟨h.config_eq, h.length, h.pos, h.le_limit, h.allocated_le, h.groups, h.unused⟩

theorem publish (h : s.WellFormed config) (hg : s.group id = .ok g) {next : Index}
    (gaveWay : Bool) (hascending : next.Ascending)
    (hentries : ∀ e ∈ next.toList, e.group = id ∧ e.payload.length ≤ config.maxEntryLen) :
    (s.publish id next gaveWay).WellFormed config := by
  refine ⟨h.config_eq, ?_, ?_, ?_, ?_, fun n g' hg' => ?_, fun n g' hg' hn => ?_⟩
  · exact (length_publish ..).trans h.length
  · exact (length_publish s id next gaveWay).symm ▸ h.pos
  · exact (length_publish s id next gaveWay).symm ▸ h.le_limit
  · exact (length_publish s id next gaveWay).symm ▸ h.allocated_le
  · obtain ⟨old, rfl, hold, rfl⟩ | ⟨-, hold⟩ := publish_cases hg'
    · exact ⟨(h.groups _ _ hold).id, hascending, fun e he => congrArg _ (hentries e he).1,
        fun e he => (hentries e he).2⟩
    · exact h.groups n g' hold
  · obtain ⟨old, rfl, -, -⟩ | ⟨-, hold⟩ := publish_cases hg'
    · exact absurd (group_eq_ok.1 hg).1 (Nat.not_lt.2 hn)
    · exact h.unused n g' hold hn

theorem entry_group (h : s.WellFormed config) (hg : s.group id = .ok g) {e : Entry}
    (he : e ∈ g.index.toList) : e.group = id ∧ e.payload.length ≤ config.maxEntryLen := by
  have hgroup := h.groups _ _ (group_eq_ok.1 hg).2
  exact ⟨GroupId.slot_inj (hgroup.tagged e he), hgroup.fits e he⟩

theorem ascending (h : s.WellFormed config) (hg : s.group id = .ok g) : g.index.Ascending :=
  (h.groups _ _ (group_eq_ok.1 hg).2).ascending

theorem put (h : s.WellFormed config) (hg : s.group id = .ok g) {e : Entry} (hid : e.group = id)
    (hlen : e.payload.length ≤ s.config.maxEntryLen) (gaveWay : Bool) :
    (s.publish id (g.index.upsert e).1 gaveWay).WellFormed config := by
  have hascending := h.ascending hg
  refine h.publish hg gaveWay (Index.ascending_upsert hascending e) fun f hf => ?_
  obtain rfl | ⟨hf, -⟩ := (Index.mem_upsert hascending).1 hf
  · exact ⟨hid, h.config_eq ▸ hlen⟩
  · exact h.entry_group hg hf

theorem remove (h : s.WellFormed config) (hg : s.group id = .ok g) {key : Key} {next : Index}
    {e : Entry} (hr : g.index.remove key = some (next, e)) (gaveWay : Bool) :
    (s.publish id next gaveWay).WellFormed config := by
  have hascending := h.ascending hg
  refine h.publish hg gaveWay (Index.ascending_remove hascending hr) fun f hf => ?_
  exact h.entry_group hg ((Index.mem_remove hascending hr).1 hf).1

end WellFormed

end Store

end SnapshotStore
