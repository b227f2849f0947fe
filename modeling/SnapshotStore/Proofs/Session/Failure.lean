import SnapshotStore.Proofs.Memory.Faults
import SnapshotStore.Proofs.Session.Course

namespace SnapshotStore

namespace Reply

def isFailure : Reply → Bool
  | .failed _ | .faulted _ | .unknown => true
  | .read (.error _) _ | .listed (.error _) _ | .copied (.error _) _ => true
  | _ => false

/-- What the reply says about a buffer of bytes that the request brought along. -/
def ownBytes? : Reply → Option Bytes
  | .read _ buffer => buffer
  | .copied _ buffer => some buffer
  | _ => none

def ownKeys? : Reply → Option (List Key)
  | .listed _ buffer => buffer
  | _ => none

end Reply

def Target.own? {α : Type} : Target α → Option (List α)
  | .own buffer => some buffer
  | .foreign _ _ => none

namespace Request

/-- The buffer of bytes that a request brings along to be filled. -/
def ownBytes? : Request → Option Bytes
  | .read _ _ _ _ target => target.own?
  | .arenaCopyIn _ _ buffer => some buffer
  | _ => none

def ownKeys? : Request → Option (List Key)
  | .listKeys _ _ target => target.own?
  | _ => none

end Request

namespace Store

variable {s : Store} {id : GroupId} {key : Key} {e : StoreError}

theorem eq_of_read_error {offset length : Nat} {dst next : Destination UInt8}
    (h : s.read id key offset length dst = (.error e, next)) : next = dst := by
  unfold read at h
  split at h
  · cases h
    rfl
  · split at h
    · cases h
      rfl
    · dsimp only at h
      split at h
      · next hwrite =>
        cases h
        exact Destination.writeBytes_of_error hwrite
      · cases h

theorem listKeys_of_error {capacity : Nat} {dst next : Destination Key}
    (h : s.listKeys id capacity dst = (.error e, next)) :
    next = dst ∨ ∃ a addr b k fault, dst = .foreign a addr ∧ next = .foreign b addr ∧
      e = .copyFault fault ∧ k < capacity ∧ a.Interrupted b addr 0 k fault := by
  unfold listKeys at h
  cases hsnap : s.snapshot id with
  | error e' =>
    simp only [hsnap] at h
    cases h
    exact .inl rfl
  | ok snap =>
    simp only [hsnap] at h
    cases hroom : dst.ensureRoom capacity with
    | error e' =>
      simp only [hroom] at h
      cases h
      exact .inl rfl
    | ok _ =>
      simp only [hroom] at h
      have hlen : (snap.index.keys.take capacity).length ≤ capacity := List.length_take_le ..
      cases dst with
      | own buffer =>
        -- there is room for as many keys as were asked for, so every one of them finds its slot
        have hcap : ¬ buffer.length < capacity := by
          intro hlt
          simp [Destination.ensureRoom, hlt] at hroom
        have hfit : 0 + (snap.index.keys.take capacity).length ≤ buffer.length := by omega
        simp [Destination.writeKeys_own hfit] at h
      | foreign a addr =>
        split at h
        · next hwrite =>
          cases h
          obtain ⟨b, k, fault, hdst, he, -, hk, hint⟩ :=
            Destination.writeKeys_foreign_of_error hwrite
          exact .inr ⟨a, addr, b, k, fault, rfl, hdst, he, by omega, hint⟩
        · cases h

end Store

namespace Target

variable {α : Type} {target : Target α} {arenas : List Arena} {dst : Destination α}

theorem buffer?_of_destination (h : target.destination? arenas = some dst) :
    buffer? dst = target.own? := by
  cases target with
  | own buffer =>
    cases h
    rfl
  | foreign n addr =>
    obtain ⟨a, -, rfl⟩ := Option.map_eq_some_iff.1 h
    rfl

theorem putBack_of_destination (h : target.destination? arenas = some dst) :
    target.putBack dst arenas = arenas := by
  cases target with
  | own buffer => rfl
  | foreign n addr =>
    obtain ⟨a, ha, rfl⟩ := Option.map_eq_some_iff.1 h
    obtain ⟨hn, rfl⟩ := List.getElem?_eq_some_iff.1 ha
    exact List.set_getElem_self hn

end Target

def Request.Spares (r : Request) (reply : Reply) : Prop :=
  reply = .unknown ∨ reply.ownBytes? = r.ownBytes? ∧ reply.ownKeys? = r.ownKeys?

namespace Session

variable (room : Allocator) (heap : Heap) (s : Session) {r : Request}

theorem act_putFromWithin_of_isFailure {id : GroupId} {key : Key} {src : Source}
    (hfail : (s.act (s.store.putFromWithin room id key src) .outcome).1.isFailure = true) :
    ∃ e, s.act (s.store.putFromWithin room id key src) .outcome = (.failed e, s) := by
  obtain ⟨e, heq⟩ | ⟨g, bs, -, -, -, heq⟩ := s.store.putFromWithin_cases room id key src
  · exact ⟨e, by rw [heq]; rfl⟩
  · rw [heq] at hfail
    cases hfail

/-- A write, a visit or any other request that may change the store has no effect if it fails. -/
theorem stepWithin_of_isFailure (hr : r.isRead = false)
    (hfail : (s.stepWithin heap r).1.isFailure = true) :
    r.Spares (s.stepWithin heap r).1 ∧ (s.stepWithin heap r).2 = s := by
  cases r with
  | allocate =>
    simp only [stepWithin, step] at hfail ⊢
    obtain ⟨-, heq⟩ | heq := s.store.allocate_cases
    · rw [heq] at hfail
      cases hfail
    · rw [heq]
      exact ⟨.inr ⟨rfl, rfl⟩, rfl⟩
  | put id key payload =>
    simp only [stepWithin] at hfail ⊢
    obtain ⟨e, heq⟩ := s.act_putFromWithin_of_isFailure heap.toAllocator hfail
    rw [heq]
    exact ⟨.inr ⟨rfl, rfl⟩, rfl⟩
  | putFrom id key origin =>
    simp only [stepWithin] at hfail ⊢
    cases hsrc : origin.source? s.arenas with
    | none => exact ⟨.inl rfl, rfl⟩
    | some src =>
      simp only [hsrc] at hfail ⊢
      obtain ⟨e, heq⟩ := s.act_putFromWithin_of_isFailure heap.toAllocator hfail
      rw [heq]
      exact ⟨.inr ⟨rfl, rfl⟩, rfl⟩
  | remove id key =>
    simp only [stepWithin] at hfail ⊢
    obtain ⟨e, heq⟩ | ⟨g, next, e, -, -, heq⟩ := s.store.removeWithin_cases heap.toAllocator id key
    · rw [heq]
      exact ⟨.inr ⟨rfl, rfl⟩, rfl⟩
    · rw [heq] at hfail
      cases hfail
  | forEach id v =>
    simp only [stepWithin, step] at hfail ⊢
    cases hvisit : s.store.forEach id v.visit { store := s.store, seen := [] } with
    | error e => exact ⟨.inr ⟨rfl, rfl⟩, rfl⟩
    | ok result =>
      rw [hvisit] at hfail
      cases hfail
  | quiesce => cases hfail
  | _ => cases hr

theorem store_of_isFailure (hfail : (s.stepWithin heap r).1.isFailure = true) :
    (s.stepWithin heap r).2.store = s.store := by
  cases hr : r.isRead with
  | true => exact s.store_of_isRead heap hr
  | false => rw [(s.stepWithin_of_isFailure heap hr hfail).2]

theorem read_of_isFailure {id : GroupId} {key : Key} {offset length : Nat} {target : Target UInt8}
    (hfail : (s.step (.read id key offset length target)).1.isFailure = true) :
    Request.Spares (.read id key offset length target)
        (s.step (.read id key offset length target)).1 ∧
      (s.step (.read id key offset length target)).2 = s := by
  simp only [step] at hfail ⊢
  cases hdst : target.destination? s.arenas with
  | none => exact ⟨.inl rfl, rfl⟩
  | some dst =>
    simp only [hdst] at hfail ⊢
    generalize hread : s.store.read id key offset length dst = answer at hfail ⊢
    obtain ⟨e | n, next⟩ := answer
    · obtain rfl := Store.eq_of_read_error hread
      refine ⟨.inr ⟨Target.buffer?_of_destination hdst, rfl⟩, ?_⟩
      rw [Target.putBack_of_destination hdst]
    · cases hfail

/-- The one failure that may leave a trace: a list of keys faults in foreign memory after some of
the keys have been delivered. -/
theorem listKeys_of_isFailure {id : GroupId} {capacity : Nat} {target : Target Key}
    (hfail : (s.step (.listKeys id capacity target)).1.isFailure = true) :
    Request.Spares (.listKeys id capacity target) (s.step (.listKeys id capacity target)).1 ∧
      ((s.step (.listKeys id capacity target)).2 = s ∨ ∃ n addr a b k fault,
        target = .foreign n addr ∧ s.arenas[n]? = some a ∧
        s.step (.listKeys id capacity target) =
          (.listed (.error (.copyFault fault)) none, { s with arenas := s.arenas.set n b }) ∧
        k < capacity ∧ a.Interrupted b addr 0 k fault) := by
  simp only [step] at hfail ⊢
  cases hdst : target.destination? s.arenas with
  | none => exact ⟨.inl rfl, .inl rfl⟩
  | some dst =>
    simp only [hdst] at hfail ⊢
    generalize hlist : s.store.listKeys id capacity dst = answer at hfail ⊢
    obtain ⟨e | n, next⟩ := answer
    · obtain rfl | ⟨a, addr, b, k, fault, rfl, rfl, rfl, hk, hint⟩ := Store.listKeys_of_error hlist
      · refine ⟨.inr ⟨rfl, Target.buffer?_of_destination hdst⟩, .inl ?_⟩
        rw [Target.putBack_of_destination hdst]
      · cases target with
        | own buffer => cases hdst
        | foreign n addr' =>
          obtain ⟨a', ha, heq⟩ := Option.map_eq_some_iff.1 hdst
          cases heq
          exact ⟨.inr ⟨rfl, rfl⟩, .inr ⟨n, addr, a, b, k, fault, rfl, ha, rfl, hk, hint⟩⟩
    · cases hfail

theorem spares_ask {α : Type} (hbytes : r.ownBytes? = none) (hkeys : r.ownKeys? = none)
    (answer : Except StoreError α) {reply : α → Reply}
    (hreply : ∀ a, (reply a).isFailure = true → r.Spares (reply a))
    (hfail : (s.ask answer reply).1.isFailure = true) : r.Spares (s.ask answer reply).1 := by
  cases answer with
  | error e => exact .inr ⟨hbytes.symm, hkeys.symm⟩
  | ok a => exact hreply a hfail

theorem spares_withSnapshot (name : String) {reply : Snapshot → Reply}
    (hreply : ∀ snap, (reply snap).isFailure = true → r.Spares (reply snap))
    (hfail : (s.withSnapshot name reply).1.isFailure = true) :
    r.Spares (s.withSnapshot name reply).1 := by
  unfold withSnapshot at hfail ⊢
  split at hfail
  · exact hreply _ hfail
  · exact .inl rfl

theorem spares_withArena (n : Nat) {reply : Arena → Reply}
    (hreply : ∀ arena, (reply arena).isFailure = true → r.Spares (reply arena))
    (hfail : (s.withArena n reply).1.isFailure = true) :
    r.Spares (s.withArena n reply).1 := by
  unfold withArena at hfail ⊢
  split at hfail
  · exact hreply _ hfail
  · exact .inl rfl

theorem transfer_of_isFailure {n : Nat} {call : Arena → Except CopyFault Unit × Arena}
    (hcall : ∀ arena fault next, call arena = (.error fault, next) → next = arena)
    (hbytes : r.ownBytes? = none) (hkeys : r.ownKeys? = none)
    (hfail : (s.transfer n call).1.isFailure = true) :
    r.Spares (s.transfer n call).1 ∧ (s.transfer n call).2 = s := by
  unfold transfer at hfail ⊢
  cases ha : s.arenas[n]? with
  | none => exact ⟨.inl rfl, rfl⟩
  | some arena =>
    simp only [ha] at hfail ⊢
    generalize hresult : call arena = result at hfail ⊢
    obtain ⟨fault | _, next⟩ := result
    · obtain rfl := hcall arena fault next hresult
      obtain ⟨hn, rfl⟩ := List.getElem?_eq_some_iff.1 ha
      dsimp only
      rw [List.set_getElem_self hn]
      exact ⟨.inr ⟨hbytes.symm, hkeys.symm⟩, rfl⟩
    · cases hfail

/-- A request that fails has no effect: the store, the foreign memories, what is held, and the
buffers of the caller are as they were. The one exception is a list of keys that faults in foreign
memory: of that memory, the slots before the one that faults may have been written. -/
theorem failure_atomic (hfail : (s.stepWithin heap r).1.isFailure = true) :
    r.Spares (s.stepWithin heap r).1 ∧
      ((s.stepWithin heap r).2 = s ∨ ∃ id capacity n addr a b k fault,
        r = .listKeys id capacity (.foreign n addr) ∧ s.arenas[n]? = some a ∧
        s.stepWithin heap r =
          (.listed (.error (.copyFault fault)) none, { s with arenas := s.arenas.set n b }) ∧
        k < capacity ∧ a.Interrupted b addr 0 k fault) := by
  cases hr : r.isRead with
  | false =>
    obtain ⟨hspares, heq⟩ := s.stepWithin_of_isFailure heap hr hfail
    exact ⟨hspares, .inl heq⟩
  | true =>
    cases r with
    | allocate | put | putFrom | remove | forEach | quiesce => cases hr
    | listKeys id capacity target =>
      obtain ⟨hspares, heq | ⟨n, addr, a, b, k, fault, rfl, hstep⟩⟩ := s.listKeys_of_isFailure hfail
      · exact ⟨hspares, .inl heq⟩
      · exact ⟨hspares, .inr ⟨id, capacity, n, addr, a, b, k, fault, rfl, hstep⟩⟩
    | read id key offset length target =>
      obtain ⟨hspares, heq⟩ := s.read_of_isFailure hfail
      exact ⟨hspares, .inl heq⟩
    | arenaStore | arenaCopyOut =>
      exact And.imp_right .inl (s.transfer_of_isFailure
        (fun _ _ _ hstore => Arena.store_of_error hstore) rfl rfl hfail)
    | group | groupSize | get | withEntry =>
      exact ⟨s.spares_ask rfl rfl _ nofun hfail, .inl (s.ask_snd _ _)⟩
    | snapInfo | snapGet | snapSearch | snapEntries | snapKeys | snapRange =>
      exact ⟨s.spares_withSnapshot _ nofun hfail, .inl (s.withSnapshot_snd _ _)⟩
    | arenaInfo n => exact ⟨s.spares_withArena _ nofun hfail, .inl (s.withArena_snd _ _)⟩
    | arenaLoad | arenaKeys =>
      refine ⟨s.spares_withArena _ (fun arena h => ?_) hfail, .inl (s.withArena_snd _ _)⟩
      split
      · next hload => simp [hload, Reply.isFailure] at h
      · exact .inr ⟨rfl, rfl⟩
    | arenaCopyIn n addr buffer =>
      refine ⟨s.spares_withArena _ (fun arena h => ?_) hfail, .inl (s.withArena_snd _ _)⟩
      generalize hcopy : arena.copyIn addr buffer = result at h ⊢
      obtain ⟨fault | _, next⟩ := result
      · obtain rfl := Arena.copyIn_of_error hcopy
        exact .inr ⟨rfl, rfl⟩
      · cases h
    | held name =>
      simp only [stepWithin, step] at hfail ⊢
      split at hfail
      · cases hfail
      · exact ⟨.inl rfl, .inl rfl⟩
    | hold | snap =>
      simp only [stepWithin, step] at hfail ⊢
      split at hfail
      · cases hfail
      · exact ⟨.inr ⟨rfl, rfl⟩, .inl rfl⟩
    | _ => cases hfail

def narrow : Session where
  store := {
    config := {}
    groups := [⟨⟨0⟩, ⟨#[⟨⟨0⟩, 3, [1]⟩, ⟨⟨0⟩, 4, [2]⟩]⟩⟩, ⟨⟨1⟩, .empty⟩, ⟨⟨2⟩, .empty⟩, ⟨⟨3⟩, .empty⟩]
    allocated := 1
    reclaimer := { eager := false, counts := { retiredIndexes := 2 } } }
  arenas := [Arena.zeroed 16 8]

theorem failure_atomic_narrow :
    (narrow.stepWithin .usual (.listKeys ⟨0⟩ 2 (.foreign 0 16))).1.isFailure = true ∧
      ∃ a b k fault, narrow.arenas[0]? = some a ∧ k < 2 ∧ a.Interrupted b 16 0 k fault ∧
        (narrow.stepWithin .usual (.listKeys ⟨0⟩ 2 (.foreign 0 16))).2 =
          { narrow with arenas := [b] } := by
  have hfail : (narrow.stepWithin .usual (.listKeys ⟨0⟩ 2 (.foreign 0 16))).1.isFailure = true := by
    decide +kernel
  have hchanged : (narrow.stepWithin .usual (.listKeys ⟨0⟩ 2 (.foreign 0 16))).2 ≠ narrow := by
    decide +kernel
  obtain ⟨-, heq | ⟨id, capacity, n, addr, a, b, k, fault, hr, ha, hstep, hk, hint⟩⟩ :=
    narrow.failure_atomic .usual hfail
  · exact absurd heq hchanged
  · cases hr
    exact ⟨hfail, a, b, k, fault, ha, hk, hint, by rw [hstep]; rfl⟩

end Session

end SnapshotStore
