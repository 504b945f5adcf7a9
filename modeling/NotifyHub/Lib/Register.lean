/-
  NotifyHub.Lib.Register — registers whose last writer wins: what a list of events leaves in
  a register that each event writes or does not touch.
-/

import Mathlib.Data.List.Induction

namespace NotifyHub

variable {T β σ : Type}

/-- The value the last writer of the list leaves; none if there is no writer. -/
def lastWrite (w : T → Option β) (l : List T) : Option β := (l.filterMap w).getLast?

variable {w : T → Option β}

@[simp] theorem lastWrite_nil : lastWrite w [] = none := rfl

theorem lastWrite_append (l m : List T) : lastWrite w (l ++ m) = (lastWrite w m).or (lastWrite w l) := by
  rw [lastWrite, List.filterMap_append, List.getLast?_append]
  rfl

theorem lastWrite_snoc (l : List T) (a : T) : lastWrite w (l ++ [a]) = (w a).or (lastWrite w l) := by
  rw [lastWrite_append]
  cases h : w a <;> simp [lastWrite, h]

theorem lastWrite_cons (a : T) (l : List T) : lastWrite w (a :: l) = (lastWrite w l).or (w a) := by
  rw [← List.singleton_append, lastWrite_append, ← List.nil_append [a], lastWrite_snoc, lastWrite_nil, Option.or_none]

/-- An event that does not write can stand anywhere. -/
theorem lastWrite_skip {a : T} (h : w a = none) (l m : List T) : lastWrite w (l ++ a :: m) = lastWrite w (l ++ m) := by
  rw [lastWrite_append, lastWrite_append, lastWrite_cons, h, Option.or_none]

/-- A writer counts as the last one if what follows it writes nothing else. -/
theorem lastWrite_settled {a : T} {b : β} (ha : w a = some b) {m : List T} (hm : ∀ x ∈ m, w x = none ∨ w x = some b)
    (l : List T) : lastWrite w (l ++ a :: m) = some b := by
  have hcons : lastWrite w (a :: m) = some b := by
    induction m using List.reverseRecOn with
    | nil => simp [lastWrite, ha]
    | append_singleton m x ih =>
      rw [← List.cons_append, lastWrite_snoc, ih fun y hy => hm y (by simp [hy])]
      rcases hm x (by simp) with hx | hx <;> rw [hx] <;> rfl
  rw [lastWrite_append, hcons]
  rfl

/-- A value was written last exactly if some event wrote it and none after it wrote. -/
theorem lastWrite_eq_some {b : β} {l : List T} :
    lastWrite w l = some b ↔ ∃ before a after, l = before ++ a :: after ∧ w a = some b ∧ ∀ x ∈ after, w x = none := by
  constructor
  · intro h
    induction l using List.reverseRecOn with
    | nil => cases h
    | append_singleton l a ih =>
      rw [lastWrite_snoc] at h
      cases ha : w a with
      | none =>
        rw [ha] at h
        obtain ⟨before, c, after, rfl, hc, hafter⟩ := ih h
        refine ⟨before, c, after ++ [a], by simp, hc, fun x hx => ?_⟩
        rcases List.mem_append.mp hx with hx | hx
        · exact hafter x hx
        · cases List.mem_singleton.mp hx
          exact ha
      | some c =>
        rw [ha] at h
        cases h
        exact ⟨l, a, [], rfl, ha, nofun⟩
  · rintro ⟨before, a, after, rfl, ha, hafter⟩
    exact lastWrite_settled ha (fun x hx => Or.inl (hafter x hx)) before

/-- What is read of a register that does not hold what it held first. -/
theorem lastWrite_of_getD {l : List T} {b d : β} (h : (lastWrite w l).getD d = b) (hb : b ≠ d) :
    lastWrite w l = some b := by
  cases hl : lastWrite w l with
  | none =>
    rw [hl] at h
    exact absurd h.symm hb
  | some x =>
    rw [hl] at h
    exact congrArg some h

theorem lastWrite_map {S : Type} (f : S → T) (l : List S) : lastWrite w (l.map f) = lastWrite (fun a => w (f a)) l := by
  rw [lastWrite, List.filterMap_map]
  rfl

/-- Events that write nothing may be left out. -/
theorem lastWrite_filter {p : T → Bool} (h : ∀ x, p x = false → w x = none) (l : List T) :
    lastWrite w (l.filter p) = lastWrite w l := by
  have hskip : (fun x => if p x then w x else none) = w := by
    funext x
    cases hp : p x with
    | true => rfl
    | false => exact (h x hp).symm
  rw [lastWrite, List.filterMap_filter, hskip, lastWrite]

/-- Events that write alike, one by one, end alike. -/
theorem lastWrite_forall {S : Type} {u : S → Option β} {R : S → T → Prop} {l : List S} {m : List T}
    (h : List.Forall₂ R l m) (hw : ∀ a b, R a b → w b = u a) : lastWrite w m = lastWrite u l := by
  have hwrites : m.filterMap w = l.filterMap u := by
    induction h with
    | nil => rfl
    | cons hab _ ih => rw [List.filterMap_cons, List.filterMap_cons, hw _ _ hab, ih]
  rw [lastWrite, lastWrite, hwrites]

/-- A register of a state that every event writes as `w` says holds the last value written. -/
theorem lastWrite_foldl {step : σ → T → σ} (read : σ → β) (h : ∀ s a, read (step s a) = (w a).getD (read s)) (s : σ)
    (l : List T) : read (l.foldl step s) = (lastWrite w l).getD (read s) := by
  induction l using List.reverseRecOn with
  | nil => rfl
  | append_singleton l a ih =>
    rw [List.foldl_append, List.foldl_cons, List.foldl_nil, h, ih, lastWrite_snoc]
    cases w a <;> rfl

end NotifyHub
