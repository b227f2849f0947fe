import SnapshotStore.Proofs.Concurrent.Lane

namespace SnapshotStore.Publication

/-- A write has the lock from the step that takes it to the step that gives it back. -/
def Phase.isInside : Phase → Bool
  | .guarding _ | .loading _ _ | .computing _ _ _ | .built _ _ _ _ | .swapped _ _ _
  | .unguarding _ _ | .unlocking _ => true
  | .idle | .locking _ | .pinning | .reading _ | .holding _ _ => false

theorem Phase.ne_idle_of_isInside {phase : Phase} (h : phase.isInside) : phase ≠ .idle := by
  rintro rfl
  exact absurd h Bool.false_ne_true

/-- A thread that is not idle works on a group that exists, and holds its lock while inside. -/
structure Locked (groups : Nat) (threads : Nat → Thread) (holder : Nat → Option Nat) : Prop where
  within : ∀ t, (threads t).phase ≠ .idle → (threads t).group < groups
  holder_iff : ∀ g t, holder g = some t ↔ (threads t).group = g ∧ (threads t).phase.isInside

namespace Locked

variable {groups : Nat} {threads : Nat → Thread} {holder : Nat → Option Nat} {t : Nat}

theorem set (h : Locked groups threads holder) (thread : Thread)
    (hwithin : thread.phase ≠ .idle → thread.group < groups)
    (hinside : ∀ g, (thread.group = g ∧ thread.phase.isInside) ↔
      ((threads t).group = g ∧ (threads t).phase.isInside)) :
    Locked groups (Function.update threads t thread) holder := by
  refine ⟨fun t' ht' => ?_, fun g t' => ?_⟩
  · by_cases he : t' = t
    · subst he
      rw [Function.update_self] at ht' ⊢
      exact hwithin ht'
    · rw [Function.update_of_ne he] at ht' ⊢
      exact h.within t' ht'
  · by_cases he : t' = t
    · subst he
      rw [Function.update_self, h.holder_iff, hinside]
    · rw [Function.update_of_ne he, h.holder_iff]

theorem become (h : Locked groups threads holder) (phase : Phase)
    (hidle : (threads t).phase ≠ .idle) (hinside : phase.isInside = (threads t).phase.isInside) :
    Locked groups (Function.update threads t { threads t with phase }) holder :=
  h.set _ (fun _ => h.within t hidle) fun g => by rw [hinside]

theorem enter (h : Locked groups threads holder) {phase : Phase}
    (hidle : (threads t).phase ≠ .idle) (hfree : holder (threads t).group = none)
    (hinside : phase.isInside) :
    Locked groups (Function.update threads t { threads t with phase })
      (Function.update holder (threads t).group (some t)) := by
  refine ⟨fun t' ht' => ?_, fun g t' => ?_⟩
  · by_cases he : t' = t
    · subst he
      rw [Function.update_self]
      exact h.within t' hidle
    · rw [Function.update_of_ne he] at ht' ⊢
      exact h.within t' ht'
  · have hold := h.holder_iff g t'
    by_cases he : t' = t
    · subst he
      by_cases hg : g = (threads t').group
      · subst hg
        simp [hinside]
      · have hne : holder g ≠ some t' := fun hs => hg (hold.1 hs).1.symm
        simpa [Function.update_of_ne hg, hne] using fun hs => absurd hs.symm hg
    · by_cases hg : g = (threads t).group
      · subst hg
        rw [hfree] at hold
        simpa [Function.update_of_ne he, Ne.symm he] using hold
      · rw [Function.update_of_ne he, Function.update_of_ne hg, hold]

theorem leave (h : Locked groups threads holder) (hinside : (threads t).phase.isInside) :
    Locked groups (Function.update threads t { threads t with phase := .idle })
      (Function.update holder (threads t).group none) := by
  have ht := (h.holder_iff _ t).2 ⟨rfl, hinside⟩
  refine ⟨fun t' ht' => ?_, fun g t' => ?_⟩
  · by_cases he : t' = t
    · subst he
      rw [Function.update_self] at ht'
      exact absurd rfl ht'
    · rw [Function.update_of_ne he] at ht' ⊢
      exact h.within t' ht'
  · have hold := h.holder_iff g t'
    by_cases hg : g = (threads t).group
    · subst hg
      rw [ht] at hold
      by_cases he : t' = t
      · subst he
        simp [Phase.isInside]
      · simpa [Function.update_of_ne he, Ne.symm he] using hold
    · rw [Function.update_of_ne hg, hold]
      by_cases he : t' = t
      · subst he
        simp [Phase.isInside, Ne.symm hg]
      · rw [Function.update_of_ne he]

end Locked

/-- Objects of a group are published in the order of their identities. -/
structure Shelved (fresh current : Object) (published : List Object) : Prop where
  lt_fresh : ∀ o ∈ published, o < fresh
  ascending : published.Pairwise (· < ·)
  last : published.getLast? = some current

namespace Shelved

variable {fresh current : Object} {published : List Object}

theorem current_mem (h : Shelved fresh current published) : current ∈ published :=
  List.mem_of_getLast? h.last

theorem le_current (h : Shelved fresh current published) {o : Object} (ho : o ∈ published) :
    o ≤ current := by
  obtain ⟨older, rfl⟩ := List.getLast?_eq_some_iff.1 h.last
  obtain ho | ho := List.mem_append.1 ho
  · exact Nat.le_of_lt ((List.pairwise_append.1 h.ascending).2.2 o ho _ (List.mem_singleton_self _))
  · exact Nat.le_of_eq (List.mem_singleton.1 ho)

theorem lt_succ (h : Shelved fresh current published) : Shelved (fresh + 1) current published :=
  ⟨fun o ho => Nat.lt_succ_of_lt (h.lt_fresh o ho), h.ascending, h.last⟩

theorem publish (h : Shelved fresh current published) :
    Shelved (fresh + 1) fresh (published ++ [fresh]) := by
  refine ⟨?_, ?_, List.getLast?_concat⟩
  · rintro o ho
    obtain ho | ho := List.mem_append.1 ho
    · exact Nat.lt_succ_of_lt (h.lt_fresh o ho)
    · exact List.mem_singleton.1 ho ▸ Nat.lt_succ_self _
  · refine List.pairwise_append.2 ⟨h.ascending, List.pairwise_singleton _ _, fun o ho o' ho' => ?_⟩
    exact List.mem_singleton.1 ho' ▸ h.lt_fresh o ho

end Shelved

namespace Machine

variable (m : Machine)

/-- What is true of a machine whatever its turns were. -/
structure Disciplined : Prop where
  locked : Locked m.groups m.threads m.holder
  shelved : ∀ g < m.groups, Shelved m.fresh (m.current g) (m.chronicle.published g)
  ordered : ∀ g < m.groups, ∃ decided undecided owed, (m.lane g).Ordered decided undecided owed

theorem initial_disciplined (groups : Nat) : (initial groups).Disciplined where
  locked := ⟨fun t h => absurd rfl h, fun g t => by simp [initial, Phase.isInside]⟩
  shelved g hg := by
    exact ⟨fun o ho => List.mem_singleton.1 ho ▸ hg, List.pairwise_singleton _ _, rfl⟩
  ordered g hg := ⟨[], [], [], rfl, rfl, rfl, rfl, rfl⟩

variable {m}

theorem shelved_swap (group : Nat) (next : Index) {g : Nat}
    (h : Shelved m.fresh (m.current g) (m.chronicle.published g)) :
    Shelved (m.swap group next).fresh ((m.swap group next).current g)
      ((m.swap group next).chronicle.published g) := by
  by_cases hg : g = group
  · subst hg
    simpa [swap] using h.publish
  · simpa [swap, hg] using h.lt_succ

namespace Disciplined

variable {t : Nat} {phase : Phase}

theorem holder_of_inside (h : m.Disciplined) (hin : (m.threads t).phase.isInside) :
    m.holder (m.threads t).group = some t :=
  (h.locked.holder_iff _ t).2 ⟨rfl, hin⟩

theorem lane_become (h : m.Disciplined) {g : Nat} (hg : g ≠ (m.threads t).group) :
    (m.become t phase).lane g = m.lane g :=
  lane_become_of_ne _ fun hs => hg ((h.locked.holder_iff g t).1 hs).1.symm

/-- A thread that is inside has to do with the writes of its own group only. -/
theorem ordered_at (h : m.Disciplined) {m' : Machine} (hidle : (m.threads t).phase ≠ .idle)
    (hother : ∀ g ≠ (m.threads t).group, m'.lane g = m.lane g)
    (hself : ∀ decided undecided owed, (m.lane (m.threads t).group).Ordered decided undecided owed →
      ∃ decided undecided owed, (m'.lane (m.threads t).group).Ordered decided undecided owed)
    (g : Nat) (hg : g < m.groups) : ∃ decided undecided owed,
    (m'.lane g).Ordered decided undecided owed := by
  by_cases he : g = (m.threads t).group
  · obtain ⟨decided, undecided, owed, ho⟩ := h.ordered _ (h.locked.within t hidle)
    exact he ▸ hself _ _ _ ho
  · rw [hother g he]
    exact h.ordered g hg

theorem writer_eq (h : m.Disciplined) (hp : (m.threads t).phase = phase) (hin : phase.isInside) :
    (m.lane (m.threads t).group).writer = some (t, phase) := by
  simp only [lane, h.holder_of_inside (hp ▸ hin), Option.map_some, hp]

theorem become (h : m.Disciplined) (hin : (m.threads t).phase.isInside) (hnext : phase.isInside)
    (hstage : ∀ undecided owed, (m.lane (m.threads t).group).Stage undecided owed →
      Lane.Stage { m.lane (m.threads t).group with writer := some (t, phase) } undecided owed) :
    (m.become t phase).Disciplined := by
  have hidle := Phase.ne_idle_of_isInside hin
  refine ⟨h.locked.become phase hidle (by rw [hin, hnext]), h.shelved, ?_⟩
  refine h.ordered_at hidle (fun g he => h.lane_become he) fun d u o ho => ?_
  rw [lane_become_self phase (h.holder_of_inside hin)]
  exact ⟨d, u, o, ho.become phase (hstage u o ho.stage)⟩

theorem enter (h : m.Disciplined) {op : Write} (hp : (m.threads t).phase = .locking op)
    (hfree : m.holder (m.threads t).group = none) :
    ((m.become t (.guarding op)).enter t (m.threads t).group op).Disciplined := by
  have hidle : (m.threads t).phase ≠ .idle := by simp [hp]
  refine ⟨h.locked.enter hidle hfree rfl, h.shelved, ?_⟩
  refine h.ordered_at hidle (fun g he => ?_) fun d u o ho => ⟨d, [(t, op)], [], ?_⟩
  · rw [lane_enter, if_neg he, h.lane_become he]
  · rw [lane_enter, if_pos rfl, lane_become_of_ne _ (by simp [hfree]), phase_become_self]
    exact ho.enter (by simp only [lane, hfree, Option.map_none])

theorem unchanged (h : m.Disciplined) {op : Write} {p : Pin} {base : Object} {outcome : Outcome}
    (hp : (m.threads t).phase = .computing op p base)
    (ha : op.apply (m.contents base) = (none, outcome)) :
    ((m.become t (.unguarding p outcome)).record (m.threads t).group outcome).Disciplined := by
  have hin : (m.threads t).phase.isInside := by rw [hp]; rfl
  have hidle := Phase.ne_idle_of_isInside hin
  have hw := h.writer_eq hp rfl
  refine ⟨h.locked.become _ hidle (by rw [hin]; rfl), h.shelved, ?_⟩
  refine h.ordered_at hidle (fun g he => ?_) fun d u o ho =>
    ⟨d ++ [(t, op)], [], [(t, outcome)], ?_⟩
  · rw [lane_record, if_neg he, h.lane_become he]
  · rw [lane_record, if_pos rfl, lane_become_self _ (h.holder_of_inside hin)]
    have hs := ho.stage
    simp only [Lane.Stage, hw] at hs
    obtain ⟨-, -, rfl⟩ := hs
    exact ho.unchanged hw ha

theorem publish (h : m.Disciplined) {p : Pin} {base old : Object} {next : Index}
    {outcome : Outcome} (hp : (m.threads t).phase = .built p base next outcome) :
    (((m.become t (.swapped p old outcome)).swap (m.threads t).group next).record
      (m.threads t).group outcome).Disciplined := by
  have hin : (m.threads t).phase.isInside := by rw [hp]; rfl
  have hidle := Phase.ne_idle_of_isInside hin
  have hw := h.writer_eq hp rfl
  have hfresh : ∀ g < m.groups, (∀ o ∈ m.chronicle.published g, o < m.fresh) ∧
      m.current g < m.fresh := fun g hg =>
    ⟨(h.shelved g hg).lt_fresh, (h.shelved g hg).lt_fresh _ (h.shelved g hg).current_mem⟩
  refine ⟨h.locked.become _ hidle (by rw [hin]; rfl), fun g hg => ?_, fun g hg => ?_⟩
  · exact shelved_swap (m := m.become t (.swapped p old outcome)) _ next (h.shelved g hg)
  · have hlane := lane_swap (m := m.become t (.swapped p old outcome)) (m.threads t).group next
      (hfresh g hg).1 (hfresh g hg).2
    by_cases he : g = (m.threads t).group
    · obtain ⟨d, u, o, ho⟩ := h.ordered g hg
      subst he
      rw [lane_record, if_pos rfl, hlane, if_pos rfl, lane_become_self _ (h.holder_of_inside hin)]
      obtain ⟨op, ho⟩ := ho.publish m.fresh old hw
      exact ⟨_, _, _, ho⟩
    · rw [lane_record, if_neg he, hlane, if_neg he, h.lane_become he]
      exact h.ordered g hg

theorem leave (h : m.Disciplined) {outcome : Outcome}
    (hp : (m.threads t).phase = .unlocking outcome) :
    ((m.become t .idle).leave t (m.threads t).group outcome).Disciplined := by
  have hin : (m.threads t).phase.isInside := by rw [hp]; rfl
  have hw := h.writer_eq hp rfl
  refine ⟨h.locked.leave hin, h.shelved, ?_⟩
  refine h.ordered_at (Phase.ne_idle_of_isInside hin) (fun g he => ?_) fun d u o ho =>
    ⟨d, [], [], ?_⟩
  · rw [lane_leave, if_neg he, h.lane_become he]
  · rw [lane_leave, if_pos rfl, lane_become_self _ (h.holder_of_inside hin)]
    exact ho.leave hw

theorem release (h : m.Disciplined) {op : Write} (hp : (m.threads t).phase = .guarding op) :
    ((m.become t .idle).release (m.threads t).group).Disciplined := by
  have hin : (m.threads t).phase.isInside := by rw [hp]; rfl
  have hw := h.writer_eq hp rfl
  refine ⟨h.locked.leave hin, h.shelved, ?_⟩
  refine h.ordered_at (Phase.ne_idle_of_isInside hin) (fun g he => ?_) fun d u o ho =>
    ⟨d, [], [], ?_⟩
  · rw [lane_release, if_neg he, h.lane_become he]
  · rw [lane_release, if_pos rfl, lane_become_self _ (h.holder_of_inside hin)]
    exact ho.release hw

theorem set_threads (h : m.Disciplined) (thread : Thread)
    (hwithin : thread.phase ≠ .idle → thread.group < m.groups)
    (hbefore : (m.threads t).phase.isInside = false) (hafter : thread.phase.isInside = false) :
    Disciplined { m with threads := Function.update m.threads t thread } where
  locked := h.locked.set thread hwithin fun g => by simp [hbefore, hafter]
  shelved := h.shelved
  ordered g hg := by
    have hfree : m.holder g ≠ some t := fun hs => by
      simpa [hbefore] using ((h.locked.holder_iff g t).1 hs).2
    rw [lane_set_threads thread hfree]
    exact h.ordered g hg

theorem become_outside (h : m.Disciplined) (hidle : (m.threads t).phase ≠ .idle)
    (hbefore : (m.threads t).phase.isInside = false) (hafter : phase.isInside = false) :
    (m.become t phase).Disciplined :=
  h.set_threads _ (fun _ => h.locked.within t hidle) hbefore hafter

theorem pin (h : m.Disciplined) : m.pin.Disciplined := ⟨h.locked, h.shelved, h.ordered⟩

theorem unpin (h : m.Disciplined) (p : Pin) : (m.unpin p).Disciplined :=
  ⟨h.locked, h.shelved, h.ordered⟩

theorem retire (h : m.Disciplined) (object : Object) : (m.retire object).Disciplined :=
  ⟨h.locked, h.shelved, h.ordered⟩

end Disciplined

theorem Disciplined.advance (h : m.Disciplined) (t : Nat) : (m.advance t).Disciplined := by
  unfold Machine.advance
  cases hp : (m.threads t).phase with
  | idle => exact h
  | locking op =>
    cases hf : m.holder (m.threads t).group with
    | some _ => simpa only [hf] using h
    | none => simpa only [hf] using h.enter hp hf
  | guarding op =>
    have hw := h.writer_eq hp rfl
    refine (h.become (by rw [hp]; rfl) rfl fun u o hs => ?_).pin
    simpa only [Lane.Stage, hw] using hs
  | loading op p =>
    have hw := h.writer_eq hp rfl
    refine h.become (by rw [hp]; rfl) rfl fun u o hs => ?_
    simp only [Lane.Stage, hw] at hs
    exact ⟨hs.1, hs.2, rfl⟩
  | computing op p base =>
    have hw := h.writer_eq hp rfl
    cases ha : op.apply (m.contents base) with
    | mk next outcome =>
      cases next with
      | none => simpa only [ha] using h.unchanged hp ha
      | some next =>
        simp only [ha]
        refine h.become (by rw [hp]; rfl) rfl fun u o hs => ?_
        simp only [Lane.Stage, hw] at hs
        obtain ⟨hu, ho, rfl⟩ := hs
        exact ⟨op, hu, ho, ha⟩
  | built p base next outcome => exact h.publish hp
  | swapped p old outcome =>
    have hw := h.writer_eq hp rfl
    refine (h.become (by rw [hp]; rfl) rfl fun u o hs => ?_).retire old
    simpa only [Lane.Stage, hw] using hs
  | unguarding p outcome =>
    have hw := h.writer_eq hp rfl
    refine (h.become (by rw [hp]; rfl) rfl fun u o hs => ?_).unpin p
    simpa only [Lane.Stage, hw] using hs
  | unlocking outcome => exact h.leave hp
  | pinning => exact (h.become_outside (by simp [hp]) (by rw [hp]; rfl) rfl).pin
  | reading p => exact h.become_outside (by simp [hp]) (by rw [hp]; rfl) rfl
  | holding p object => exact (h.become_outside (by simp [hp]) (by rw [hp]; rfl) rfl).unpin p

theorem Disciplined.step (h : m.Disciplined) (move : Move) : (m.step move).Disciplined := by
  cases move with
  | write t g op =>
    simp only [Machine.step]
    split
    · next hc => exact h.set_threads _ (fun _ => hc.2) (by rw [hc.1]; rfl) rfl
    · exact h
  | read t g =>
    simp only [Machine.step]
    split
    · next hc => exact h.set_threads _ (fun _ => hc.2) (by rw [hc.1]; rfl) rfl
    · exact h
  | advance t => exact h.advance t
  | collect object =>
    simp only [Machine.step]
    split
    · split
      · exact ⟨h.locked, h.shelved, h.ordered⟩
      · exact h
    · exact h

theorem Disciplined.retreat {s : Scarce} (h : s.machine.Disciplined) (t : Nat) :
    (s.retreat t).machine.Disciplined := by
  unfold Scarce.retreat
  split
  · next op p base hp =>
    have hw := h.writer_eq hp rfl
    refine (h.become (by rw [hp]; rfl) rfl fun u o hs => ?_).unpin p
    simp only [Lane.Stage, hw] at hs
    exact ⟨hs.1, hs.2.1⟩
  · next op hp => exact h.release hp
  · exact h

end Machine

namespace Scarce

/-- What a turn makes of the machine: nothing, what a move makes of it, or what a thread does whose
write was refused. -/
theorem machine_step (s : Scarce) (turn : Turn) :
    (s.step turn).machine = s.machine ∨
      (∃ move, turn = .move move ∧ (s.step turn).machine = s.machine.step move) ∨
      ∃ t, turn = .move (.advance t) ∧ (s.step turn).machine = (s.retreat t).machine := by
  cases turn with
  | refuse t =>
    simp only [step]
    split <;> exact .inl rfl
  | move move =>
    cases move with
    | advance t =>
      simp only [step]
      split
      · exact .inr (.inr ⟨t, rfl, rfl⟩)
      · exact .inr (.inl ⟨.advance t, rfl, rfl⟩)
    | write t g op => exact .inr (.inl ⟨.write t g op, rfl, rfl⟩)
    | read t g => exact .inr (.inl ⟨.read t g, rfl, rfl⟩)
    | collect object => exact .inr (.inl ⟨.collect object, rfl, rfl⟩)

variable {s : Scarce}

theorem run_append (turns turns' : List Turn) :
    s.run (turns ++ turns') = (s.run turns).run turns' :=
  List.foldl_append

theorem run_concat (turns : List Turn) (turn : Turn) :
    s.run (turns ++ [turn]) = (s.run turns).step turn := by
  rw [run_append]
  rfl

end Scarce

theorem Machine.Disciplined.turn {s : Scarce} (h : s.machine.Disciplined) (turn : Turn) :
    (s.step turn).machine.Disciplined := by
  obtain he | ⟨move, -, he⟩ | ⟨t, -, he⟩ := s.machine_step turn
  · rwa [he]
  · rw [he]
    exact h.step move
  · rw [he]
    exact h.retreat t

theorem disciplined_afterTurns (groups : Nat) (turns : List Turn) :
    (afterTurns groups turns).Disciplined := by
  induction turns using List.reverseRecOn with
  | nil => exact Machine.initial_disciplined groups
  | append_singleton turns turn ih =>
    rw [afterTurns, Scarce.run_concat]
    exact ih.turn turn

end SnapshotStore.Publication
