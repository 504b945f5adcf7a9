/-
  NotifyHub.Lib.Fill — a map completed by lookups of the keys that it lacks: every key is
  looked up when its turn comes, unless the map has it by then, and a lookup that fails ends
  the whole.
-/

import NotifyHub.Lib.OMap

namespace NotifyHub.OMap

variable {κ α β : Type} [DecidableEq κ]

/-- A lookup fails, finds nothing, or finds what is set. -/
def fill (find : κ → Option (Option α)) : List κ → OMap κ α → Option (OMap κ α)
  | [], m => some m
  | k :: ks, m => if m.has k then fill find ks m else (find k).bind fun found => fill find ks (found.elim m (m.set k))

variable {find find' : κ → Option (Option α)}

theorem fill_cons_of_mem {k : κ} {ks : List κ} {m : OMap κ α} (h : k ∈ m.keys) :
    fill find (k :: ks) m = fill find ks m := by
  rw [fill, if_pos (has_eq_true.mpr h)]

theorem fill_cons_of_not_mem {k : κ} {ks : List κ} {m : OMap κ α} (h : k ∉ m.keys) :
    fill find (k :: ks) m = (find k).bind fun found => fill find ks (found.elim m (m.set k)) := by
  rw [fill, if_neg fun hk => h (has_eq_true.mp hk)]

/-- What a lookup sets is its own key. -/
theorem mem_keys_elim {found : Option α} {k k' : κ} {m : OMap κ α} (h : k' ≠ k) :
    k' ∈ (found.elim m (m.set k)).keys ↔ k' ∈ m.keys := by
  cases found with
  | none => rfl
  | some v =>
    dsimp only [Option.elim]
    rw [mem_keys_set]
    exact or_iff_right h

/-- It fails exactly where a key fails that was not there from the start. -/
theorem fill_eq_none {ks : List κ} {m : OMap κ α} : fill find ks m = none ↔ ∃ k ∈ ks, k ∉ m.keys ∧ find k = none := by
  induction ks generalizing m with
  | nil => simp [fill]
  | cons k ks ih =>
    by_cases hk : k ∈ m.keys
    · rw [fill_cons_of_mem hk, ih]
      constructor
      · rintro ⟨k', hmem, h⟩
        exact ⟨k', List.mem_cons_of_mem _ hmem, h⟩
      · rintro ⟨k', hmem, hoff, h⟩
        have hne : k' ≠ k := fun heq => hoff (heq ▸ hk)
        exact ⟨k', (List.mem_cons.mp hmem).resolve_left hne, hoff, h⟩
    · rw [fill_cons_of_not_mem hk]
      cases hfind : find k with
      | none => exact iff_of_true rfl ⟨k, List.mem_cons_self, hk, hfind⟩
      | some found =>
        rw [Option.bind_some, ih]
        constructor
        · rintro ⟨k', hmem, hoff, h⟩
          have hne : k' ≠ k := by
            rintro rfl
            rw [hfind] at h
            cases h
          exact ⟨k', List.mem_cons_of_mem _ hmem, fun hin => hoff ((mem_keys_elim hne).mpr hin), h⟩
        · rintro ⟨k', hmem, hoff, h⟩
          have hne : k' ≠ k := by
            rintro rfl
            rw [hfind] at h
            cases h
          exact ⟨k', (List.mem_cons.mp hmem).resolve_left hne, fun hin => hoff ((mem_keys_elim hne).mp hin), h⟩

/-- What was there stays, and what is found for a key that was not there comes to it. -/
theorem get_fill {ks : List κ} {m m' : OMap κ α} (h : fill find ks m = some m') (k : κ) (v : α) :
    m'.get k = some v ↔ m.get k = some v ∨ k ∉ m.keys ∧ k ∈ ks ∧ find k = some (some v) := by
  induction ks generalizing m with
  | nil =>
    cases h
    simp
  | cons k' ks ih =>
    by_cases hk' : k' ∈ m.keys
    · rw [fill_cons_of_mem hk'] at h
      rw [ih h, List.mem_cons]
      refine or_congr_right (and_congr_right fun hk => ?_)
      have hne : k ≠ k' := fun heq => hk (heq ▸ hk')
      simp [hne]
    · rw [fill_cons_of_not_mem hk', Option.bind_eq_some_iff] at h
      obtain ⟨found, hfind, h⟩ := h
      rw [ih h, List.mem_cons]
      by_cases hne : k = k'
      · subst hne
        have hnone : m.get k = none := get_eq_none.mpr hk'
        cases found with
        | none => simp [hnone, hk', hfind]
        | some w => simp [hnone, hk', hfind, get_set_self, mem_keys_set]
      · rw [mem_keys_elim hne]
        have hget : (found.elim m (m.set k')).get k = m.get k := by
          cases found with
          | none => rfl
          | some w => exact get_set_ne m w hne
        simp [hget, hne]

/-- Only the lookups of keys that were not there matter. -/
theorem fill_congr {ks : List κ} {m : OMap κ α} (h : ∀ k ∈ ks, k ∉ m.keys → find k = find' k) :
    fill find ks m = fill find' ks m := by
  induction ks generalizing m with
  | nil => rfl
  | cons k ks ih =>
    by_cases hk : k ∈ m.keys
    · rw [fill_cons_of_mem hk, fill_cons_of_mem hk]
      exact ih fun k' hk' => h k' (List.mem_cons_of_mem _ hk')
    · rw [fill_cons_of_not_mem hk, fill_cons_of_not_mem hk, ← h k List.mem_cons_self hk]
      refine Option.bind_congr fun found _ => ih fun k' hmem hoff => h k' (List.mem_cons_of_mem _ hmem) fun hin =>
        hoff ?_
      by_cases hne : k' = k
      · exact absurd (hne ▸ hin) hk
      · exact (mem_keys_elim hne).mpr hin

theorem map_addAll (f : α → β) (key : α → κ) (key' : β → κ) (h : ∀ v, key' (f v) = key v) (l : List α) (m : OMap κ α) :
    (m.addAll key l).map f = (m.map f).addAll key' (l.map f) := by
  induction l generalizing m with
  | nil => rfl
  | cons v l ih =>
    change ((m.set (key v) v).addAll key l).map f = ((m.map f).set (key' (f v)) (f v)).addAll key' (l.map f)
    rw [ih, map_set, h]

/-- Filling, seen through a function of the values. -/
theorem map_fill (f : α → β) (ks : List κ) (m : OMap κ α) :
    (fill find ks m).map (OMap.map f) = fill (fun k => (find k).map (Option.map f)) ks (m.map f) := by
  induction ks generalizing m with
  | nil => rfl
  | cons k ks ih =>
    by_cases hk : k ∈ m.keys
    · rw [fill_cons_of_mem hk, ih, fill_cons_of_mem (by rwa [keys_map])]
    · rw [fill_cons_of_not_mem hk, fill_cons_of_not_mem (by rwa [keys_map]), Option.map_bind]
      cases find k with
      | none => rfl
      | some found =>
        cases found with
        | none => exact ih m
        | some v =>
          simp only [Option.bind_some, Option.map_some, Option.elim]
          rw [← map_set]
          exact ih _

theorem size_fill_le {ks : List κ} {m m' : OMap κ α} (h : fill find ks m = some m') : m'.size ≤ m.size + ks.length := by
  induction ks generalizing m with
  | nil =>
    cases h
    exact Nat.le_refl _
  | cons k ks ih =>
    rw [List.length_cons]
    by_cases hk : k ∈ m.keys
    · rw [fill_cons_of_mem hk] at h
      have := ih h
      omega
    · rw [fill_cons_of_not_mem hk, Option.bind_eq_some_iff] at h
      obtain ⟨found, -, h⟩ := h
      have hrest := ih h
      cases found with
      | none =>
        dsimp only [Option.elim] at hrest
        omega
      | some v =>
        have hset := size_set_le m k v
        dsimp only [Option.elim] at hrest
        omega

end NotifyHub.OMap
