/-
  NotifyHub.Lib.SortBy — lists ordered by a key, greatest first, where no key comes twice:
  there is one such order (`eq_sortDesc`), filtering keeps it, and what comes after the
  first `n` of it can be dropped by name (`sortDesc_prune`).
-/

import Mathlib.Data.List.Sort

namespace NotifyHub

variable {α κ ι : Type} [LinearOrder κ]

/-- `ORDER BY key DESC` -/
def sortDesc (key : α → κ) (l : List α) : List α := l.insertionSort fun a b => key b ≤ key a

variable {key : α → κ} {l m : List α}

theorem sortDesc_perm (key : α → κ) (l : List α) : (sortDesc key l).Perm l := List.perm_insertionSort _ l

theorem mem_sortDesc {x : α} : x ∈ sortDesc key l ↔ x ∈ l := (sortDesc_perm key l).mem_iff

theorem sortDesc_pairwise (key : α → κ) (l : List α) : (sortDesc key l).Pairwise fun a b => key b ≤ key a := by
  have : Std.Total fun a b : α => key b ≤ key a := ⟨fun a b => le_total (key b) (key a)⟩
  have : IsTrans α fun a b => key b ≤ key a := ⟨fun _ _ _ hab hbc => le_trans hbc hab⟩
  exact List.pairwise_insertionSort _ l

/-- The order is the only one. -/
theorem eq_sortDesc (hperm : m.Perm l) (hsorted : m.Pairwise fun a b => key b ≤ key a) (hnodup : (l.map key).Nodup) :
    m = sortDesc key l := by
  refine List.Perm.eq_of_pairwise (fun a b ha hb hba hab => ?_) hsorted (sortDesc_pairwise key l)
    (hperm.trans (sortDesc_perm key l).symm)
  exact List.inj_on_of_nodup_map hnodup (hperm.subset ha) (mem_sortDesc.mp hb) (le_antisymm hab hba)

theorem sortDesc_filter (hnodup : (l.map key).Nodup) (p : α → Bool) :
    sortDesc key (l.filter p) = (sortDesc key l).filter p := by
  refine (eq_sortDesc ((sortDesc_perm key l).filter p) ((sortDesc_pairwise key l).filter p) ?_).symm
  exact hnodup.sublist (List.filter_sublist.map key)

/-- A greatest element comes first. -/
theorem sortDesc_cons {x : α} (h : ∀ y ∈ l, key y ≤ key x) (hnodup : ((x :: l).map key).Nodup) :
    sortDesc key (x :: l) = x :: sortDesc key l := by
  refine (eq_sortDesc ((sortDesc_perm key l).cons x) ?_ hnodup).symm
  exact List.pairwise_cons.mpr ⟨fun y hy => h y (mem_sortDesc.mp hy), sortDesc_pairwise key l⟩

/-- Dropping by name what comes after the first `n`. -/
theorem sortDesc_prune [DecidableEq ι] (name : α → ι) (hnodup : (l.map key).Nodup) (hnames : (l.map name).Nodup)
    (n : Nat) :
    sortDesc key (l.filter fun x => name x ∉ ((sortDesc key l).drop n).map name) = (sortDesc key l).take n := by
  rw [sortDesc_filter hnodup]
  have hsorted : ((sortDesc key l).map name).Nodup := ((sortDesc_perm key l).map name).nodup_iff.mpr hnames
  generalize sortDesc key l = s at hsorted
  have hsplit : s.filter (fun x => name x ∉ (s.drop n).map name) =
      (s.take n).filter (fun x => name x ∉ (s.drop n).map name) ++ (s.drop n).filter
        (fun x => name x ∉ (s.drop n).map name) := by
    rw [← List.filter_append, List.take_append_drop]
  rw [hsplit]
  rw [← List.take_append_drop n s, List.map_append, List.nodup_append] at hsorted
  have htake : (s.take n).filter (fun x => name x ∉ (s.drop n).map name) = s.take n := by
    refine List.filter_eq_self.mpr fun x hx => decide_eq_true fun hmem => ?_
    exact hsorted.2.2 (name x) (List.mem_map_of_mem hx) (name x) hmem rfl
  have hdrop : (s.drop n).filter (fun x => name x ∉ (s.drop n).map name) = [] := by
    refine List.filter_eq_nil_iff.mpr fun x hx hmem => ?_
    exact of_decide_eq_true hmem (List.mem_map_of_mem hx)
  rw [htake, hdrop, List.append_nil]

end NotifyHub
