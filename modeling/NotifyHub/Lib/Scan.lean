/-
  NotifyHub.Lib.Scan — the loop over a list that keeps the place of the best element so
  far and replaces it only by a better one: it ends with the first of the best.
-/

import Mathlib.Order.Lattice
import NotifyHub.Lib.Rows

namespace NotifyHub

variable {α κ : Type} [LinearOrder κ]

/-- The loop from place `i` on, over the elements that are `eligible`. -/
def scan (eligible : α → Bool) (better : α → α → Bool) : List α → Nat → Option (Nat × α) → Option (Nat × α)
  | [], _, best => best
  | a :: l, i, best =>
    if eligible a && best.all (fun b => better a b.2) then scan eligible better l (i + 1) (some (i, a))
    else scan eligible better l (i + 1) best

/-- The first of the admitted elements with the least key, with its place. -/
def FirstLeast (eligible : α → Bool) (key : α → κ) (l : List α) : Option (Nat × α) → Prop
  | none => ∀ a ∈ l, eligible a = false
  | some (i, a) => l[i]? = some a ∧ eligible a = true ∧
    ∀ j b, l[j]? = some b → eligible b = true → key a ≤ key b ∧ (j < i → key a < key b)

variable {eligible : α → Bool} {better : α → α → Bool} {key : α → κ}

/-- One more element that is better than the best so far. -/
theorem FirstLeast.replace {l : List α} {best : Option (Nat × α)} {a : α} (h : FirstLeast eligible key l best)
    (ha : eligible a = true) (hb : ∀ b, best = some b → key a < key b.2) :
    FirstLeast eligible key (l ++ [a]) (some (l.length, a)) := by
  refine ⟨by simp, ha, ?_⟩
  intro j b hj helig
  rcases getElem_snoc.mp hj with hj | ⟨rfl, rfl⟩
  · have hlt : key a < key b := by
      cases best with
      | none => rw [h b (List.mem_of_getElem? hj)] at helig; cases helig
      | some c => exact lt_of_lt_of_le (hb c rfl) (h.2.2 j b hj helig).1
    exact ⟨le_of_lt hlt, fun _ => hlt⟩
  · exact ⟨le_refl _, fun hlt => absurd hlt (Nat.lt_irrefl _)⟩

/-- One more element that is not. -/
theorem FirstLeast.keep {l : List α} {best : Option (Nat × α)} {a : α} (h : FirstLeast eligible key l best)
    (ha : eligible a = true → ∃ b, best = some b ∧ key b.2 ≤ key a) : FirstLeast eligible key (l ++ [a]) best := by
  cases best with
  | none =>
    intro b hb
    rcases List.mem_append.mp hb with hb | hb
    · exact h b hb
    · cases List.mem_singleton.mp hb
      cases helig : eligible a with
      | false => rfl
      | true => obtain ⟨_, hb, -⟩ := ha helig; cases hb
  | some c =>
    obtain ⟨i, c⟩ := c
    obtain ⟨hi, hc, hleast⟩ := h
    have hlen : i < l.length := (List.getElem?_eq_some_iff.mp hi).1
    refine ⟨by rw [List.getElem?_append_left hlen]; exact hi, hc, ?_⟩
    intro j b hj helig
    rcases getElem_snoc.mp hj with hj | ⟨rfl, rfl⟩
    · exact hleast j b hj helig
    · obtain ⟨_, hb, hle⟩ := ha helig
      cases hb
      exact ⟨hle, fun hlt => absurd hlt (by omega)⟩

theorem scan_firstLeast (hb : ∀ a b, better a b = true ↔ key a < key b) {before : List α} {best : Option (Nat × α)}
    (h : FirstLeast eligible key before best) (l : List α) :
    FirstLeast eligible key (before ++ l) (scan eligible better l before.length best) := by
  induction l generalizing before best with
  | nil =>
    rw [List.append_nil]
    exact h
  | cons a l ih =>
    have hnext : ∀ {best'}, FirstLeast eligible key (before ++ [a]) best' →
        FirstLeast eligible key (before ++ a :: l) (scan eligible better l (before.length + 1) best') := by
      intro best' h'
      have := ih h'
      rw [List.append_assoc, List.singleton_append, List.length_append, List.length_singleton] at this
      exact this
    unfold scan
    split
    · rename_i hbest
      simp only [Bool.and_eq_true, Option.all_eq_true] at hbest
      apply hnext
      apply h.replace hbest.1
      intro b hsome
      exact (hb a b.2).mp (hbest.2 b hsome)
    · rename_i hbest
      apply hnext
      apply h.keep
      intro helig
      cases best with
      | none => simp [helig] at hbest
      | some b =>
        refine ⟨b, rfl, le_of_not_gt fun hlt => hbest ?_⟩
        simp [helig, (hb a b.2).mpr hlt]

/-- The loop from the start of the list. -/
theorem scan_spec (hb : ∀ a b, better a b = true ↔ key a < key b) (l : List α) :
    FirstLeast eligible key l (scan eligible better l 0 none) := by
  have hnone : FirstLeast eligible key [] none := fun a h => by cases h
  exact scan_firstLeast hb hnone l

/-- The loop from the second element, with the first as the best so far. -/
theorem scan_head_spec (hb : ∀ a b, better a b = true ↔ key a < key b) {a : α} (ha : eligible a = true) (l : List α) :
    FirstLeast eligible key (a :: l) (scan eligible better l 1 (some (0, a))) := by
  have hhead : FirstLeast eligible key [a] (some (0, a)) := by
    refine ⟨rfl, ha, ?_⟩
    intro j b hj _
    rcases getElem_snoc.mp (show ([] ++ [a])[j]? = some b from hj) with hj | ⟨rfl, rfl⟩
    · cases hj
    · exact ⟨le_refl _, fun h => absurd h (Nat.lt_irrefl _)⟩
  exact scan_firstLeast hb hhead l

end NotifyHub
