import SnapshotStore.Proofs.Concurrent.Discipline

namespace SnapshotStore.Publication

def Phase.isWaiting : Phase → Bool
  | .pinning | .reading _ => true
  | _ => false

namespace Machine

variable {m : Machine} {t g : Nat}

/-- From one machine to a later one objects are only added. -/
structure Grows (m m' : Machine) : Prop where
  groups : m'.groups = m.groups
  fresh : m.fresh ≤ m'.fresh
  contents : ∀ o < m.fresh, m'.contents o = m.contents o
  published : ∀ g, m.chronicle.published g <+: m'.chronicle.published g

theorem Grows.of_eq {m' : Machine} (hgroups : m'.groups = m.groups) (hfresh : m'.fresh = m.fresh)
    (hcontents : m'.contents = m.contents)
    (hpublished : m'.chronicle.published = m.chronicle.published) : m.Grows m' :=
  ⟨hgroups, Nat.le_of_eq hfresh.symm, fun o _ => congrFun hcontents o,
    fun _ => hpublished ▸ List.prefix_refl _⟩

theorem Grows.refl : m.Grows m := .of_eq rfl rfl rfl rfl

theorem Grows.trans {m' m'' : Machine} (h : m.Grows m') (h' : m'.Grows m'') : m.Grows m'' :=
  ⟨h'.groups.trans h.groups, Nat.le_trans h.fresh h'.fresh,
    fun o ho => (h'.contents o (Nat.lt_of_lt_of_le ho h.fresh)).trans (h.contents o ho),
    fun g => (h.published g).trans (h'.published g)⟩

theorem grows_swap (group : Nat) (next : Index) : m.Grows (m.swap group next) := by
  refine ⟨rfl, Nat.le_succ _, fun o ho => Function.update_of_ne (Nat.ne_of_lt ho) .., fun g => ?_⟩
  by_cases h : g = group
  · subst h
    simp [swap]
  · simp [swap, h]

theorem grows_advance (t : Nat) : m.Grows (m.advance t) := by
  unfold advance
  cases hp : (m.threads t).phase with
  | locking op =>
    cases hf : m.holder (m.threads t).group with
    | some _ => simpa only [hf] using Grows.refl
    | none =>
      simp only [hf]
      exact .of_eq rfl rfl rfl rfl
  | computing op p base =>
    cases ha : op.apply (m.contents base) with
    | mk next outcome =>
      cases next with
      | none =>
        simp only [ha]
        exact .of_eq rfl rfl rfl rfl
      | some next =>
        simp only [ha]
        exact .of_eq rfl rfl rfl rfl
  | built p base next outcome =>
    have hs := grows_swap (m := m) (m.threads t).group next
    exact ⟨hs.groups, hs.fresh, hs.contents, hs.published⟩
  | _ => exact .of_eq rfl rfl rfl rfl

theorem grows_step (move : Move) : m.Grows (m.step move) := by
  cases move with
  | advance t => exact grows_advance t
  | _ =>
    simp only [step]
    repeat' split
    all_goals exact .of_eq rfl rfl rfl rfl

/-- An advance takes a thread to some phase of its group, and to an index it has waited for only
when that is the current one. -/
theorem threads_advance (m : Machine) (t : Nat) : ∃ phase,
    (m.advance t).threads = Function.update m.threads t { m.threads t with phase } ∧
    (phase.isWaiting → (m.threads t).phase.isWaiting) ∧
    ∀ p o, phase = .holding p o →
      (m.threads t).phase = .reading p ∧ m.current (m.threads t).group = o := by
  have hself : m.threads =
      Function.update m.threads t ⟨(m.threads t).group, (m.threads t).phase⟩ :=
    (Function.update_eq_self t m.threads).symm
  unfold advance
  cases hp : (m.threads t).phase with
  | idle =>
    rw [hp] at hself
    exact ⟨.idle, hself, id, nofun⟩
  | locking op =>
    rw [hp] at hself
    cases hf : m.holder (m.threads t).group with
    | some _ => exact ⟨.locking op, by simpa only [hf] using hself, id, nofun⟩
    | none => exact ⟨.guarding op, by simp only [hf]; rfl, nofun, nofun⟩
  | computing op p base =>
    rcases ha : op.apply (m.contents base) with ⟨_ | next, outcome⟩
    · exact ⟨.unguarding p outcome, by simp only [ha]; rfl, nofun, nofun⟩
    · exact ⟨.built p base next outcome, by simp only [ha]; rfl, nofun, nofun⟩
  | pinning => exact ⟨_, rfl, fun _ => rfl, nofun⟩
  | reading p =>
    refine ⟨_, rfl, nofun, fun q o he => ?_⟩
    cases he
    exact ⟨rfl, rfl⟩
  | _ => exact ⟨_, rfl, nofun, nofun⟩

theorem threads_step (m : Machine) (move : Move) (t : Nat) :
    (m.step move).threads t = m.threads t ∨
    (∃ g op, (m.step move).threads t = ⟨g, .locking op⟩) ∨
    (∃ g, move = .read t g ∧ (m.threads t).phase = .idle ∧
      (m.step move).threads t = ⟨g, .pinning⟩) ∨
    move = .advance t ∧ ∃ phase, (m.step move).threads t = ⟨(m.threads t).group, phase⟩ ∧
      (phase.isWaiting → (m.threads t).phase.isWaiting) ∧
      ∀ p o, phase = .holding p o →
        (m.threads t).phase = .reading p ∧ m.current (m.threads t).group = o := by
  cases move with
  | write t' g op =>
    simp only [step]
    split
    · by_cases he : t = t'
      · subst he
        exact .inr (.inl ⟨g, op, Function.update_self ..⟩)
      · exact .inl (Function.update_of_ne he ..)
    · exact .inl rfl
  | read t' g =>
    simp only [step]
    split
    · next hc =>
      by_cases he : t = t'
      · subst he
        exact .inr (.inr (.inl ⟨g, rfl, hc.1, Function.update_self ..⟩))
      · exact .inl (Function.update_of_ne he ..)
    · exact .inl rfl
  | advance t' =>
    obtain ⟨phase, hthreads, hphase⟩ := threads_advance m t'
    simp only [step, hthreads]
    by_cases he : t = t'
    · subst he
      exact .inr (.inr (.inr ⟨rfl, phase, Function.update_self .., hphase⟩))
    · exact .inl (Function.update_of_ne he ..)
  | collect object =>
    simp only [step]
    repeat' split
    all_goals exact .inl rfl

theorem Disciplined.contents_eq (h : m.Disciplined) (hg : g < m.groups) {m' : Machine}
    (hgrows : m.Grows m') {o : Object} (ho : o ∈ m.chronicle.published g) :
    m'.contents o = m.contents o :=
  hgrows.contents o ((h.shelved g hg).lt_fresh o ho)

theorem Disciplined.idxOf_le (h : m.Disciplined) (hg : g < m.groups) {o o' : Object}
    (ho : o ∈ m.chronicle.published g) (ho' : o' ∈ m.chronicle.published g) (hle : o ≤ o') :
    (m.chronicle.published g).idxOf o ≤ (m.chronicle.published g).idxOf o' := by
  by_contra hlt
  have hi := List.idxOf_lt_length_of_mem ho
  have hi' := List.idxOf_lt_length_of_mem ho'
  have := List.pairwise_iff_getElem.1 (h.shelved g hg).ascending _ _ hi' hi (Nat.lt_of_not_le hlt)
  rw [List.getElem_idxOf, List.getElem_idxOf] at this
  exact absurd hle (Nat.not_le_of_lt this)

end Machine

namespace Scarce

variable {s : Scarce} {turn : Turn} {t g : Nat}

theorem grows_step (s : Scarce) (turn : Turn) : s.machine.Grows (s.step turn).machine := by
  obtain he | ⟨move, -, he⟩ | ⟨t, -, he⟩ := machine_step s turn
  · rw [he]
    exact .refl
  · rw [he]
    exact Machine.grows_step move
  · rw [he, retreat]
    split <;> exact .of_eq rfl rfl rfl rfl

theorem grows_run (s : Scarce) (turns : List Turn) : s.machine.Grows (s.run turns).machine := by
  induction turns generalizing s with
  | nil => exact .refl
  | cons turn turns ih => exact (grows_step s turn).trans (ih (s.step turn))

theorem threads_retreat (s : Scarce) (t t' : Nat) :
    (s.retreat t').machine.threads t = s.machine.threads t ∨
    ∃ phase, (s.retreat t').machine.threads t = ⟨(s.machine.threads t).group, phase⟩ ∧
      phase.isWaiting = false ∧ ∀ p o, phase ≠ .holding p o := by
  by_cases he : t = t'
  · subst he
    unfold retreat
    split
    · exact .inr ⟨_, Function.update_self .., rfl, nofun⟩
    · exact .inr ⟨_, Function.update_self .., rfl, nofun⟩
    · exact .inl rfl
  · refine .inl ?_
    unfold retreat
    split <;> first | exact Function.update_of_ne he .. | rfl

theorem step_waiting (h : ((s.step turn).machine.threads t).phase.isWaiting) :
    (s.machine.threads t).group = ((s.step turn).machine.threads t).group ∧
        (s.machine.threads t).phase.isWaiting ∨
      turn = .move (.read t ((s.step turn).machine.threads t).group) ∧
        (s.machine.threads t).phase = .idle := by
  obtain he | ⟨move, rfl, he⟩ | ⟨t', -, he⟩ := machine_step s turn
  · rw [he] at h ⊢
    exact .inl ⟨rfl, h⟩
  · rw [he] at h ⊢
    obtain he | ⟨g, op, he⟩ | ⟨g, rfl, hidle, he⟩ | ⟨-, phase, he, hw, -⟩ :=
      Machine.threads_step s.machine move t
    · rw [he] at h ⊢
      exact .inl ⟨rfl, h⟩
    · rw [he] at h
      exact absurd h Bool.false_ne_true
    · rw [he]
      exact .inr ⟨rfl, hidle⟩
    · rw [he] at h ⊢
      exact .inl ⟨rfl, hw h⟩
  · rw [he] at h ⊢
    obtain he | ⟨phase, he, hw, -⟩ := threads_retreat s t t'
    · rw [he] at h ⊢
      exact .inl ⟨rfl, h⟩
    · rw [he, hw] at h
      exact absurd h Bool.false_ne_true

theorem step_holding {p : Pin} {o : Object}
    (h : (s.step turn).machine.threads t = ⟨g, .holding p o⟩) :
    s.machine.threads t = ⟨g, .holding p o⟩ ∨
      turn = .move (.advance t) ∧ s.machine.threads t = ⟨g, .reading p⟩ ∧
        s.machine.current g = o := by
  obtain he | ⟨move, rfl, he⟩ | ⟨t', -, he⟩ := machine_step s turn
  · exact .inl (he ▸ h)
  · rw [he] at h
    obtain he | ⟨g, op, he⟩ | ⟨g, -, -, he⟩ | ⟨rfl, phase, he, -, hh⟩ :=
      Machine.threads_step s.machine move t
    · exact .inl (he ▸ h)
    · simp [he] at h
    · simp [he] at h
    · rw [he] at h
      cases h
      obtain ⟨hr, hc⟩ := hh p o rfl
      exact .inr ⟨rfl, by rw [← hr], hc⟩
  · rw [he] at h
    obtain he | ⟨phase, he, -, hh⟩ := threads_retreat s t t'
    · exact .inl (he ▸ h)
    · rw [he] at h
      cases h
      exact absurd rfl (hh p o)

/-- An idle thread begins to read a group and then waits. -/
structure Waits (s : Scarce) (t g : Nat) (between : List Turn) : Prop where
  idle : (s.machine.threads t).phase = .idle
  waiting : ∀ mid, mid <+: between →
    (((s.step (.move (.read t g))).run mid).machine.threads t).group = g ∧
      (((s.step (.move (.read t g))).run mid).machine.threads t).phase.isWaiting

/-- An idle thread begins to read a group, waits, loads the object that is current at that instant,
and holds it from then on. -/
structure Reads (s : Scarce) (t g : Nat) (p : Pin) (object : Object) (between after : List Turn) :
    Prop where
  waits : s.Waits t g between
  waited : ((s.step (.move (.read t g))).run between).machine.threads t = ⟨g, .reading p⟩
  loads : ((s.step (.move (.read t g))).run between).machine.current g = object
  holds : ∀ mid, mid <+: after →
    ((s.step (.move (.read t g))).run (between ++ .move (.advance t) :: mid)).machine.threads t =
      ⟨g, .holding p object⟩

end Scarce

open Machine Scarce

variable {groups : Nat} {turns : List Turn} {t t' g : Nat} {p p' : Pin} {o o' : Object}

theorem exists_waits (h : ((afterTurns groups turns).threads t).phase.isWaiting)
    (hg : ((afterTurns groups turns).threads t).group = g) :
    ∃ before between, turns = before ++ .move (.read t g) :: between ∧
      ((Scarce.initial groups).run before).Waits t g between := by
  induction turns using List.reverseRecOn with
  | nil => exact absurd h Bool.false_ne_true
  | append_singleton turns turn ih =>
    rw [afterTurns, run_concat] at h hg
    obtain ⟨hgroup, hw⟩ | ⟨hm, hidle⟩ := step_waiting h
    · obtain ⟨before, between, rfl, hb⟩ := ih hw (hgroup.trans hg)
      refine ⟨before, between ++ [turn], by simp, hb.idle, fun mid hmid => ?_⟩
      obtain rfl | hmid := List.prefix_concat_iff.1 hmid
      · rw [run_append] at h hg
        rw [run_concat]
        exact ⟨hg, h⟩
      · exact hb.waiting mid hmid
    · rw [hg] at hm
      subst hm
      refine ⟨turns, [], rfl, hidle, fun mid hmid => ?_⟩
      rw [List.prefix_nil.1 hmid]
      exact ⟨hg, h⟩

theorem exists_reads (h : (afterTurns groups turns).threads t = ⟨g, .holding p o⟩) :
    ∃ before between after,
      turns = before ++ .move (.read t g) :: (between ++ .move (.advance t) :: after) ∧
      ((Scarce.initial groups).run before).Reads t g p o between after := by
  induction turns using List.reverseRecOn with
  | nil => simp [afterTurns, Scarce.initial, Scarce.run, Publication.initial] at h
  | append_singleton turns turn ih =>
    rw [afterTurns, run_concat] at h
    obtain hold | ⟨rfl, hold, rfl⟩ := step_holding h
    · obtain ⟨before, between, after, rfl, hr⟩ := ih hold
      refine ⟨before, between, after ++ [turn], by simp, hr.waits, hr.waited, hr.loads, ?_⟩
      intro mid hmid
      obtain rfl | hmid := List.prefix_concat_iff.1 hmid
      · rw [← List.cons_append, ← List.append_assoc, run_concat]
        rw [run_append] at h
        exact h
      · exact hr.holds mid hmid
    · have hwaiting : ((afterTurns groups turns).threads t).phase.isWaiting := by
        rw [afterTurns, hold]
        rfl
      have hgroup : ((afterTurns groups turns).threads t).group = g := by rw [afterTurns, hold]
      obtain ⟨before, between, rfl, hb⟩ := exists_waits hwaiting hgroup
      rw [run_append] at h hold ⊢
      refine ⟨before, between, [], by simp, hb, hold, rfl, fun mid hmid => ?_⟩
      rw [List.prefix_nil.1 hmid, run_concat]
      exact h

theorem groups_afterTurns (groups : Nat) (turns : List Turn) :
    (afterTurns groups turns).groups = groups :=
  (grows_run (Scarce.initial groups) turns).groups

theorem grows_afterTurns {earlier : List Turn} (h : earlier <+: turns) :
    (afterTurns groups earlier).Grows (afterTurns groups turns) := by
  obtain ⟨later, rfl⟩ := h
  rw [afterTurns, afterTurns, run_append]
  exact grows_run _ later

theorem le_current {earlier : List Turn} (h : earlier <+: turns) (hg : g < groups)
    (ho : o ∈ (afterTurns groups earlier).chronicle.published g) :
    o ≤ (afterTurns groups turns).current g :=
  ((disciplined_afterTurns groups turns).shelved g (by rwa [groups_afterTurns])).le_current
    (((grows_afterTurns h).published g).subset ho)

theorem lt_of_holding (h : (afterTurns groups turns).threads t = ⟨g, .holding p o⟩) :
    g < groups := by
  have hg := (disciplined_afterTurns groups turns).locked.within t (by simp [h])
  rwa [h, groups_afterTurns] at hg

theorem mem_of_holding (h : (afterTurns groups turns).threads t = ⟨g, .holding p o⟩) :
    o ∈ (afterTurns groups turns).chronicle.published g := by
  obtain ⟨before, between, after, hm, hr⟩ := exists_reads h
  have hprefix : before ++ .move (.read t g) :: between <+: turns :=
    ⟨.move (.advance t) :: after, by rw [hm, List.append_assoc, List.cons_append]⟩
  have hload := (disciplined_afterTurns groups (before ++ .move (.read t g) :: between)).shelved g
    (by rw [groups_afterTurns]; exact lt_of_holding h)
  have hc : (afterTurns groups (before ++ .move (.read t g) :: between)).current g = o := by
    rw [afterTurns, run_append]
    exact hr.loads
  exact ((grows_afterTurns hprefix).published g).subset (hc ▸ hload.current_mem)

/-- A look at what was loaded after an earlier look shows nothing older; otherwise it had been
loaded by then. -/
theorem holding_le {earlier : List Turn} (hearlier : earlier <+: turns)
    (h : (afterTurns groups earlier).threads t = ⟨g, .holding p o⟩)
    (h' : (afterTurns groups turns).threads t' = ⟨g, .holding p' o'⟩) :
    o ≤ o' ∨ (afterTurns groups earlier).threads t' = ⟨g, .holding p' o'⟩ := by
  obtain ⟨before, between, after, hm, hr⟩ := exists_reads h'
  have hload : before ++ .move (.read t' g) :: between <+: turns :=
    ⟨.move (.advance t') :: after, by rw [hm, List.append_assoc, List.cons_append]⟩
  have hloads : (afterTurns groups (before ++ .move (.read t' g) :: between)).current g = o' := by
    rw [afterTurns, run_append]
    exact hr.loads
  obtain hle | ⟨rest, rfl⟩ := List.prefix_or_prefix_of_prefix hearlier hload
  · exact .inl (hloads ▸ le_current hle (lt_of_holding h) (mem_of_holding h))
  · cases rest with
    | nil =>
      rw [List.append_nil] at h
      exact .inl (hloads ▸ le_current (List.prefix_refl _) (lt_of_holding h) (mem_of_holding h))
    | cons turn mid =>
      rw [hm, List.append_assoc, List.cons_append, List.prefix_append_right_inj,
        List.cons_prefix_cons, List.prefix_append_right_inj] at hearlier
      obtain ⟨rfl, hmid⟩ := List.cons_prefix_cons.1 hearlier.2
      refine .inr ?_
      rw [afterTurns, List.append_assoc, List.cons_append, run_append]
      exact hr.holds mid hmid

namespace Machine

variable {m : Machine}

/-- What a group has published and answered follows from the decided ones of its critical sections,
done one after another in their order; only the last may be undecided or unanswered. -/
structure Serial (m : Machine) (g : Nat) (decided : List (Nat × Write)) : Prop where
  entered : ∃ undecided, m.chronicle.entered g = decided ++ undecided ∧ undecided.length ≤ 1
  published : (m.chronicle.published g).map m.contents =
    (History.sequential (decided.map Prod.snd)).published
  current : (m.chronicle.published g).getLast? = some (m.current g)
  answered : ∃ owed, owed.length ≤ 1 ∧
    (decided.map Prod.fst).zip (History.sequential (decided.map Prod.snd)).outcomes =
      m.chronicle.returned g ++ owed
  free : m.holder g = none → m.chronicle.entered g = decided ∧
    (decided.map Prod.fst).zip (History.sequential (decided.map Prod.snd)).outcomes =
      m.chronicle.returned g

theorem Disciplined.serial (h : m.Disciplined) (hg : g < m.groups) :
    ∃ decided, m.Serial g decided := by
  obtain ⟨decided, undecided, owed, ho⟩ := h.ordered g hg
  have hle := ho.stage.length_le
  refine ⟨decided, ⟨undecided, ho.entered, by omega⟩, ?_, (h.shelved g hg).last,
    ⟨owed, by omega, ?_⟩, fun hfree => ?_⟩
  · rw [ho.history]
    rfl
  · rw [ho.history]
    exact ho.answers
  · obtain ⟨rfl, rfl⟩ := ho.stage.of_none (by simp only [lane, hfree, Option.map_none])
    rw [ho.history]
    exact ⟨ho.entered.trans (List.append_nil _), ho.answers.trans (List.append_nil _)⟩

end Machine

/-- What users of a group can rely on whatever the order of the turns. A write that was refused
memory leaves nothing behind. -/
structure Linearizable (groups : Nat) (turns : List Turn) (g : Nat) : Prop where
  /-- Writes take effect one after another, in the order of their critical sections. -/
  serial : ∃ decided, (afterTurns groups turns).Serial g decided
  /-- A read answers from one index, which is the current one at an instant of the read. -/
  reads : ∀ t p o, (afterTurns groups turns).threads t = ⟨g, .holding p o⟩ →
    ∃ before between after,
      turns = before ++ .move (.read t g) :: (between ++ .move (.advance t) :: after) ∧
      ((Scarce.initial groups).run before).Reads t g p o between after
  /-- No index is published twice. -/
  nodup : ((afterTurns groups turns).chronicle.published g).Nodup
  /-- What has been published never changes. -/
  keeps : ∀ earlier, earlier <+: turns →
    ∀ o ∈ (afterTurns groups earlier).chronicle.published g,
      (afterTurns groups turns).contents o = (afterTurns groups earlier).contents o
  /-- A thread that reads again does not see an older index. -/
  monotone : ∀ earlier, earlier <+: turns → ∀ t p p' o o',
    (afterTurns groups earlier).threads t = ⟨g, .holding p o⟩ →
    (afterTurns groups turns).threads t = ⟨g, .holding p' o'⟩ →
    ((afterTurns groups turns).chronicle.published g).idxOf o ≤
      ((afterTurns groups turns).chronicle.published g).idxOf o'
  /-- Nor does a read that loads after another one has, whichever threads they are of; so it is also
  when somebody has several reads under way. -/
  later : ∀ earlier, earlier <+: turns → ∀ t t' p p' o o',
    (afterTurns groups earlier).threads t = ⟨g, .holding p o⟩ →
    (afterTurns groups earlier).threads t' ≠ ⟨g, .holding p' o'⟩ →
    (afterTurns groups turns).threads t' = ⟨g, .holding p' o'⟩ →
    ((afterTurns groups turns).chronicle.published g).idxOf o ≤
      ((afterTurns groups turns).chronicle.published g).idxOf o'

theorem run_linearizable (groups : Nat) (turns : List Turn) (g : Nat) (hg : g < groups) :
    Linearizable groups turns g := by
  have hd := disciplined_afterTurns groups
  have hlt : ∀ earlier, g < (afterTurns groups earlier).groups := fun earlier => by
    rwa [groups_afterTurns]
  have hidx : ∀ earlier, earlier <+: turns → ∀ t t' p p' o o',
      (afterTurns groups earlier).threads t = ⟨g, .holding p o⟩ →
      (afterTurns groups turns).threads t' = ⟨g, .holding p' o'⟩ → o ≤ o' →
      ((afterTurns groups turns).chronicle.published g).idxOf o ≤
        ((afterTurns groups turns).chronicle.published g).idxOf o' :=
    fun earlier hearlier t t' p p' o o' h h' hle =>
      (hd turns).idxOf_le (hlt turns)
        (((grows_afterTurns hearlier).published g).subset (mem_of_holding h))
        (mem_of_holding h') hle
  refine ⟨(hd turns).serial (hlt turns), fun t p o h => exists_reads h, ?_,
    fun earlier hearlier o ho => ?_, ?_, ?_⟩
  · exact ((hd turns).shelved g (hlt turns)).ascending.imp Nat.ne_of_lt
  · exact (hd earlier).contents_eq (hlt earlier) (grows_afterTurns hearlier) ho
  · intro earlier hearlier t p p' o o' h h'
    refine hidx earlier hearlier t t p p' o o' h h' ?_
    obtain hle | hsame := holding_le hearlier h h'
    · exact hle
    · cases h.symm.trans hsame
      exact Nat.le_refl o
  · intro earlier hearlier t t' p p' o o' h hnot h'
    exact hidx earlier hearlier t t' p p' o o' h h' ((holding_le hearlier h h').resolve_right hnot)

/-- A reader and three writers of one group. The reader loads before the first swap, and there is no
memory for the second write. -/
def contended : List Turn :=
  [.move (.write 0 0 (.put ⟨⟨0⟩, 7, [1]⟩)), .move (.write 1 0 (.put ⟨⟨0⟩, 8, [2]⟩)),
    .move (.write 3 0 (.remove 7)), .move (.read 2 0), .move (.advance 0), .move (.advance 1),
    .move (.advance 2), .move (.advance 0), .move (.advance 0), .move (.advance 0),
    .move (.advance 2)] ++ List.replicate 4 (.move (.advance 0)) ++
    List.replicate 3 (.move (.advance 1)) ++ .refuse 1 ::
    List.replicate 2 (.move (.advance 1)) ++ List.replicate 5 (.move (.advance 3))

theorem contended_linearizable :
    Linearizable 1 contended 0 ∧
      (afterTurns 1 contended).chronicle.entered 0 =
        [(0, .put ⟨⟨0⟩, 7, [1]⟩), (3, .remove 7)] ∧
      (afterTurns 1 contended).chronicle.published 0 = [0, 1, 2] ∧
      (afterTurns 1 contended).chronicle.returned 0 = [(0, .inserted)] ∧
      (afterTurns 1 contended).threads 2 = ⟨0, .holding 0 0⟩ :=
  ⟨run_linearizable 1 contended 0 (by decide), by decide +kernel, by decide +kernel,
    by decide +kernel, by decide +kernel⟩

end SnapshotStore.Publication
