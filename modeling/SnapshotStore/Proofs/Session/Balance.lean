import SnapshotStore.Proofs.Session.Failure
import SnapshotStore.Proofs.Session.Representation
import SnapshotStore.Proofs.Store.Total

namespace SnapshotStore

namespace Store

variable {config : Config} {s t : Store} {b c : Books}

/-- The books agree with the store: what was inserted and not removed is there, every write has
retired an index, and every entry that was replaced or removed is retired. -/
structure Balanced (s : Store) (b : Books) : Prop where
  entries : b.inserted = s.total + b.removed
  retiredIndexes : s.reclaimer.counts.retiredIndexes = .ofNat b.writes
  retiredEntries : s.reclaimer.counts.retiredEntries = .ofNat (b.replaced + b.removed)

namespace Balanced

theorem init (h : Store.init config = .ok s) : s.Balanced {} := by
  have htotal := total_init h
  obtain ⟨-, rfl⟩ := init_eq_ok.1 h
  exact ⟨htotal.symm, rfl, rfl⟩

theorem put (h : s.Balanced b) {id : GroupId} {g : Group} (hg : s.group id = .ok g)
    (hascending : g.index.Ascending) (e : Entry) :
    (s.publish id (g.index.upsert e).1 (g.index.upsert e).2.isSome).Balanced
      (b.put (.ofReplaced (g.index.upsert e).2)) := by
  have hentries := h.entries
  have htotal := total_put hg hascending e (g.index.upsert e).2.isSome
  have hindexes : s.reclaimer.counts.retiredIndexes + 1 = .ofNat (b.writes + 1) := by
    rw [h.retiredIndexes]
    exact (UInt64.ofNat_add _ 1).symm
  rw [← Books.writes_put b (.ofReplaced (g.index.upsert e).2)] at hindexes
  cases hold : (g.index.upsert e).2 with
  | none =>
    rw [hold] at htotal hindexes
    refine ⟨?_, hindexes, h.retiredEntries⟩
    change b.inserted + 1 = _ + b.removed
    simp only [Option.elim_none] at htotal
    omega
  | some old =>
    rw [hold] at htotal hindexes
    refine ⟨?_, hindexes, ?_⟩
    · change b.inserted = _ + b.removed
      simp only [Option.elim_some] at htotal
      omega
    · change s.reclaimer.counts.retiredEntries + 1 = .ofNat (b.replaced + 1 + b.removed)
      rw [h.retiredEntries, Nat.add_right_comm]
      exact (UInt64.ofNat_add _ 1).symm

theorem remove (h : s.Balanced b) {id : GroupId} {g : Group} (hg : s.group id = .ok g)
    (hascending : g.index.Ascending) {key : Key} {next : Index} {e : Entry}
    (hr : g.index.remove key = some (next, e)) : (s.publish id next true).Balanced b.remove := by
  have hentries := h.entries
  have htotal := total_remove hg hascending hr true
  refine ⟨?_, ?_, ?_⟩
  · change b.inserted = _ + (b.removed + 1)
    omega
  · change s.reclaimer.counts.retiredIndexes + 1 = _
    rw [h.retiredIndexes, Books.writes_remove]
    exact (UInt64.ofNat_add _ 1).symm
  · change s.reclaimer.counts.retiredEntries + 1 = .ofNat (b.replaced + (b.removed + 1))
    rw [h.retiredEntries, ← Nat.add_assoc]
    exact (UInt64.ofNat_add _ 1).symm

theorem transition (h : s.Balanced b) (hs : s.WellFormed config) (ht : s.Transition b t c) :
    t.Balanced c := by
  cases ht with
  | unchanged => exact h
  | allocated hlt => exact ⟨h.entries, h.retiredIndexes, h.retiredEntries⟩
  | put hg hid hlen => exact h.put hg (hs.ascending hg) _
  | removed hg hr => exact h.remove hg (hs.ascending hg) hr
  | collected => exact ⟨h.entries, h.retiredIndexes, h.retiredEntries⟩

end Balanced

end Store

def Request.onlyReads : Request → Bool
  | .forEach _ v => v.copyTo.isNone
  | r => r.isRead

theorem Session.store_of_onlyReads (s : Session) (heap : Heap) {r : Request}
    (hr : r.onlyReads = true) : (s.stepWithin heap r).2.store = s.store := by
  cases r with
  | forEach id v =>
    have hnone : v.copyTo = none := Option.isNone_iff_eq_none.1 hr
    simp only [stepWithin, step]
    cases hvisit : s.store.forEach id v.visit ⟨s.store, []⟩ with
    | error e => rfl
    | ok result =>
      refine Store.forEach_keeps (I := fun p => p.store = s.store) (fun e p hp => ?_) rfl hvisit
      simpa only [Visit.visit, Visit.copy, hnone] using hp
  | _ => exact s.store_of_isRead heap hr

namespace Account

theorem Reaches.balanced {config : Config} {a b : Account} (h : Reaches a b)
    (hformed : a.store.WellFormed config) (hbalanced : a.store.Balanced a.books) :
    b.store.Balanced b.books :=
  (h.keeps (P := fun s b => s.WellFormed config ∧ s.Balanced b)
    (fun ht hs => ⟨hs.1.transition ht, hs.2.transition hs.1 ht⟩) ⟨hformed, hbalanced⟩).2

/-- However a store has been used since it was set up, as long as the counters do not wrap around:
every put that succeeded has an entry that is there or is retired, every write that succeeded has
retired one index, and only such writes count. -/
theorem books_balance {config : Config} {store : Store} (hinit : Store.init config = .ok store)
    (arenas : List Arena) {a : Account} (h : Reaches (start store arenas) a)
    (hwrites : a.books.writes < wordSize) :
    let counts := a.store.reclaimer.counts
    a.books.puts = a.store.total + counts.retiredEntries.toNat ∧
      counts.retiredIndexes.toNat = a.books.puts + a.books.removed ∧
      counts.retiredIndexes.toNat = a.books.inserted + counts.retiredEntries.toNat ∧
      ∀ heap r, r.onlyReads = true ∨ (a.session.stepWithin heap r).1.isFailure = true →
        (a.session.stepWithin heap r).2.store.reclaimer.counts = counts := by
  have hformed := Store.WellFormed.init hinit
  obtain ⟨hentries, hindexes, hretired⟩ := h.balanced hformed (.init hinit)
  have hindexes : a.store.reclaimer.counts.retiredIndexes.toNat = a.books.writes := by
    rw [hindexes]
    exact UInt64.toNat_ofNat_of_lt' hwrites
  have hretired : a.store.reclaimer.counts.retiredEntries.toNat =
      a.books.replaced + a.books.removed := by
    have hle : a.books.replaced + a.books.removed ≤ a.books.writes := by
      simp only [Books.writes, Books.puts]
      omega
    rw [hretired]
    exact UInt64.toNat_ofNat_of_lt' (Nat.lt_of_le_of_lt hle hwrites)
  simp only [Books.writes, Books.puts] at hindexes ⊢
  refine ⟨by omega, hindexes, by omega, fun heap r hr => ?_⟩
  obtain hread | hfail := hr
  · rw [a.session.store_of_onlyReads heap hread]
  · rw [a.session.store_of_isFailure heap hfail]

def emptied : Account :=
  (((((start pair []).request .usual .allocate).request .usual (.put ⟨0⟩ 5 [1])).request .usual
    (.put ⟨0⟩ 5 [2])).request .usual (.remove ⟨0⟩ 5)).request .usual (.remove ⟨0⟩ 6)

theorem books_balance_emptied :
    Store.init pairConfig = .ok pair ∧ Reaches (start pair []) emptied ∧
      emptied.books = ⟨1, 1, 1⟩ ∧ emptied.store.total = 0 ∧
      emptied.store.reclaimer.counts.retiredEntries.toNat = 2 ∧
      emptied.store.reclaimer.counts.retiredIndexes.toNat = 3 := by
  have hinit : Store.init pairConfig = .ok pair := rfl
  have hreach : Reaches (start pair []) emptied :=
    .request _ _ rfl (.request _ _ rfl (.request _ _ rfl (.request _ _ rfl
      (.request _ _ rfl (.refl _)))))
  have hbooks : emptied.books = ⟨1, 1, 1⟩ := by decide +kernel
  have htotal : emptied.store.total = 0 := by decide +kernel
  obtain ⟨hputs, hindexes, -, -⟩ := books_balance hinit [] hreach (by decide +kernel)
  rw [htotal, hbooks] at hputs
  rw [hbooks] at hindexes
  exact ⟨hinit, hreach, hbooks, htotal, by simpa [Books.puts] using hputs.symm, hindexes⟩

end Account

end SnapshotStore
