import Mathlib.Data.List.Basic
import SnapshotStore.Proofs.Index.Update

namespace SnapshotStore.Index

variable {es : List Entry}

theorem key_le_trans (e f g : Entry) (hef : decide (e.key ≤ f.key) = true)
    (hfg : decide (f.key ≤ g.key) = true) : decide (e.key ≤ g.key) = true :=
  decide_eq_true (UInt64.le_trans (of_decide_eq_true hef) (of_decide_eq_true hfg))

theorem key_le_total (e f : Entry) : (decide (e.key ≤ f.key) || decide (f.key ≤ e.key)) = true := by
  simpa using UInt64.le_total e.key f.key

theorem pairwise_sorted (es : List Entry) :
    (es.mergeSort fun e f => e.key ≤ f.key).Pairwise fun e f => e.key ≤ f.key :=
  (List.pairwise_mergeSort key_le_trans key_le_total es).imp of_decide_eq_true

theorem filter_sorted (es : List Entry) (key : Key) :
    (es.mergeSort fun e f => e.key ≤ f.key).filter (fun e => e.key = key) =
      es.filter fun e => e.key = key := by
  have hsame : (es.filter fun e => e.key = key).Pairwise fun e f => decide (e.key ≤ f.key) := by
    refine List.pairwise_of_forall_mem_list fun e he f hf => decide_eq_true ?_
    have hkey : ∀ g ∈ es.filter (fun e => e.key = key), g.key = key := fun g hg => by
      simpa using (List.mem_filter.1 hg).2
    exact UInt64.le_of_eq ((hkey e he).trans (hkey f hf).symm)
  have hsub := (List.sublist_mergeSort key_le_trans key_le_total hsame List.filter_sublist).filter
    fun e => decide (e.key = key)
  rw [List.filter_filter] at hsub
  simp only [Bool.and_self] at hsub
  exact (hsub.eq_of_length ((List.mergeSort_perm es _).filter _).length_eq.symm).symm

theorem keepLast_sublist (es : List Entry) : (keepLast es).Sublist es := by
  fun_induction keepLast es with
  | case1 e f rest heq ih => exact ih.cons e
  | case2 e f rest hne ih => exact ih.cons_cons e
  | case3 es => exact List.Sublist.refl es

theorem pairwise_keepLast (h : es.Pairwise fun e f => e.key ≤ f.key) :
    (keepLast es).Pairwise fun e f => e.key < f.key := by
  fun_induction keepLast es with
  | case1 e f rest heq ih => exact ih h.of_cons
  | case2 e f rest hne ih =>
    obtain ⟨he, hrest⟩ := List.pairwise_cons.1 h
    refine List.pairwise_cons.2 ⟨fun g hg => ?_, ih hrest⟩
    have hef : e.key < f.key := UInt64.lt_of_le_of_ne (he f List.mem_cons_self) hne
    obtain rfl | hg := List.mem_cons.1 ((keepLast_sublist _).subset hg)
    · exact hef
    · exact UInt64.lt_of_lt_of_le hef ((List.pairwise_cons.1 hrest).1 g hg)
  | case3 es hshort =>
    match es, hshort with
    | [], _ => exact List.Pairwise.nil
    | [e], _ => exact List.pairwise_singleton _ e
    | e :: f :: rest, hshort => exact absurd rfl (hshort e f rest)

/-- The entry that is kept is the last one with its key. -/
theorem filter_keepLast (h : es.Pairwise fun e f => e.key ≤ f.key) (key : Key) :
    (keepLast es).filter (fun e => e.key = key) =
      (es.filter fun e => e.key = key).getLast?.toList := by
  fun_induction keepLast es with
  | case1 e f rest heq ih =>
    rw [ih h.of_cons]
    by_cases hkey : e.key = key
    · have hf : f.key = key := heq ▸ hkey
      simp [hkey, hf]
    · rw [List.filter_cons_of_neg (a := e) (by simpa using hkey)]
  | case2 e f rest hne ih =>
    obtain ⟨he, hrest⟩ := List.pairwise_cons.1 h
    by_cases hkey : e.key = key
    · have hef : e.key < f.key := UInt64.lt_of_le_of_ne (he f List.mem_cons_self) hne
      have hnone : (f :: rest).filter (fun e => e.key = key) = [] := by
        refine List.filter_eq_nil_iff.2 fun g hg => ?_
        have hfg : f.key ≤ g.key := by
          obtain rfl | hg := List.mem_cons.1 hg
          · exact UInt64.le_refl _
          · exact (List.pairwise_cons.1 hrest).1 g hg
        simpa using fun hgk => UInt64.ne_of_lt (UInt64.lt_of_lt_of_le hef hfg) (hkey.trans hgk.symm)
      have hkept := ih hrest
      rw [hnone] at hkept
      rw [List.filter_cons_of_pos (by simpa using hkey), hkept,
        List.filter_cons_of_pos (by simpa using hkey), hnone]
      rfl
    · rw [List.filter_cons_of_neg (a := e) (by simpa using hkey), ih hrest,
        List.filter_cons_of_neg (a := e) (by simpa using hkey)]
  | case3 es hshort =>
    match es, hshort with
    | [], _ => rfl
    | [e], _ => by_cases hkey : e.key = key <;> simp [hkey]
    | e :: f :: rest, hshort => exact absurd rfl (hshort e f rest)

theorem ascending_ofEntries (es : List Entry) : (ofEntries es).Ascending :=
  ascending_iff.2 (pairwise_keepLast (pairwise_sorted es))

theorem get?_ofEntries (es : List Entry) (key : Key) :
    (ofEntries es).get? key = es.reverse.find? fun e => e.key = key := by
  calc (ofEntries es).get? key
      = (ofEntries es).toList.find? fun e => e.key = key :=
        get?_eq_find? (ascending_ofEntries es) key
    _ = ((ofEntries es).toList.filter fun e => e.key = key).head? := List.head?_filter.symm
    _ = (es.filter fun e => e.key = key).getLast?.toList.head? := by
        rw [ofEntries, toList, filter_keepLast (pairwise_sorted es), filter_sorted]
    _ = (es.filter fun e => e.key = key).getLast? := by
        cases (es.filter fun e => e.key = key).getLast? <;> rfl
    _ = es.reverse.find? fun e => e.key = key := by
        rw [List.getLast?_eq_head?_reverse, ← List.filter_reverse, List.head?_filter]

end SnapshotStore.Index
