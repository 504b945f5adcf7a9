/-
  NotifyHub.Lib.Rows — lists whose entries are known by their place: what is appended
  goes to the end, what changes stays where it is.
-/

import Mathlib.Data.List.Basic

namespace NotifyHub

variable {α : Type} {l : List α} {a b : α} {i j : Nat}

theorem getElem_snoc : (l ++ [a])[i]? = some b ↔ l[i]? = some b ∨ i = l.length ∧ b = a := by
  rcases Nat.lt_trichotomy i l.length with hi | rfl | hi
  · rw [List.getElem?_append_left hi]
    exact ⟨Or.inl, fun h => h.resolve_right fun h => by omega⟩
  · rw [List.getElem?_concat_length, List.getElem?_eq_none (Nat.le_refl _)]
    simp [eq_comm]
  · rw [List.getElem?_eq_none (by rw [List.length_append, List.length_singleton]; omega),
      List.getElem?_eq_none (by omega)]
    simp only [reduceCtorEq, false_or, false_iff]
    omega

theorem getElem_append_old (h : l[i]? = some a) (l' : List α) : (l ++ l')[i]? = some a := by
  obtain ⟨hlt, -⟩ := List.getElem?_eq_some_iff.mp h
  rw [List.getElem?_append_left hlt, h]

theorem getElem_modify {f : α → α} (h : l[j]? = some a) : (l.modify i f)[j]? = some (if i = j then f a else a) := by
  rw [List.getElem?_modify, h]
  rfl

theorem modified_iff {f : α → α} : (l.modify i f)[j]? = some b ↔ ∃ a, l[j]? = some a ∧
    (if i = j then f a else a) = b := by
  rw [List.getElem?_modify]
  exact Option.map_eq_some_iff

/-- How a change of one row changes a count. -/
theorem countP_modify {f : α → α} (p : α → Bool) (h : l[i]? = some a) :
    (l.modify i f).countP p + (if p a then 1 else 0) = l.countP p + if p (f a) then 1 else 0 := by
  induction l generalizing i with
  | nil => cases h
  | cons x l ih =>
    cases i with
    | zero =>
      obtain rfl := Option.some.inj h
      rw [List.modify_zero_cons, List.countP_cons, List.countP_cons]
      omega
    | succ i =>
      have := ih h
      rw [List.modify_succ_cons, List.countP_cons, List.countP_cons]
      omega

theorem getElem_set_self (h : l[i]? = some a) : (l.set i b)[i]? = some b := by
  obtain ⟨hlt, -⟩ := List.getElem?_eq_some_iff.mp h
  exact List.getElem?_set_self hlt

theorem getElem_set {c : α} (h : l[i]? = some a) : (l.set i b)[j]? = some c ↔ i = j ∧ c = b ∨
    i ≠ j ∧ l[j]? = some c := by
  by_cases hij : i = j
  · subst hij
    rw [getElem_set_self h]
    simp [eq_comm]
  · rw [List.getElem?_set_ne hij]
    simp [hij]

/-- A change that the image does not show. -/
theorem map_set_same {β : Type} {f : α → β} (h : l[i]? = some a) (hf : f b = f a) : (l.set i b).map f = l.map f := by
  refine List.ext_getElem? fun j => ?_
  rw [List.getElem?_map, List.getElem?_map]
  by_cases hij : i = j
  · subst hij
    rw [getElem_set_self h, h, Option.map_some, Option.map_some, hf]
  · rw [List.getElem?_set_ne hij]

/-- What holds at every place of a list that grows at its head. -/
theorem forall_suffix_cons {P : α → List α → Prop} (ha : P a l) (h : ∀ b l', b :: l' <:+ l → P b l') :
    ∀ b l', b :: l' <:+ a :: l → P b l' := by
  intro b l' hsuf
  rcases List.suffix_cons_iff.mp hsuf with heq | hsuf
  · obtain ⟨rfl, rfl⟩ := List.cons.inj heq
    exact ha
  · exact h b l' hsuf

/-- A list whose elements are marked, and what follows its end. -/
theorem marked_inj {one zero : α} (hne : one ≠ zero) {k k' m m' : List α}
    (h : k.flatMap (fun b => [one, b]) ++ zero :: m = k'.flatMap (fun b => [one, b]) ++ zero :: m') :
    k = k' ∧ m = m' := by
  induction k generalizing k' with
  | nil =>
    cases k' with
    | nil => exact ⟨rfl, (List.cons.inj h).2⟩
    | cons b k' => exact absurd (List.cons.inj h).1.symm hne
  | cons a k ih =>
    cases k' with
    | nil => exact absurd (List.cons.inj h).1 hne
    | cons b k' =>
      simp only [List.flatMap_cons, List.cons_append, List.nil_append, List.cons.injEq, true_and] at h
      obtain ⟨rfl, hm⟩ := ih h.2
      exact ⟨by rw [h.1], hm⟩

end NotifyHub
