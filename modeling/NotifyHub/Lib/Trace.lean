/-
  NotifyHub.Lib.Trace — records of what happened: every entry is justified by the entries
  before it, and a record grows at its end.
-/

import Mathlib.Data.List.Basic

namespace NotifyHub

variable {T : Type} {J : List T → T → Prop} {l es : List T} {e : T}

/-- `J` holds of every entry and what comes before it. -/
def Traced (J : List T → T → Prop) (l : List T) : Prop := ∀ before e after, l = before ++ e :: after → J before e

theorem traced_nil : Traced J [] := by
  intro before e after h
  simp at h

theorem Traced.append (h : Traced J l) (hes : ∀ before e after, es = before ++ e :: after → J (l ++ before) e) :
    Traced J (l ++ es) := by
  intro before e after heq
  rcases List.append_eq_append_iff.mp heq with ⟨mid, rfl, hmid⟩ | ⟨mid, rfl, hmid⟩
  · exact hes mid e after hmid
  · cases mid with
    | nil =>
      have hj := hes [] e after hmid.symm
      rwa [List.append_nil, List.append_nil] at hj
    | cons x mid =>
      obtain ⟨rfl, -⟩ := List.cons.inj hmid
      exact h before e mid rfl

theorem Traced.snoc (h : Traced J l) (hj : J l e) : Traced J (l ++ [e]) := by
  refine h.append fun before e' after heq => ?_
  cases before with
  | nil =>
    obtain ⟨rfl, -⟩ := List.cons.inj heq
    rwa [List.append_nil]
  | cons x before => simp at heq

theorem Traced.init (h : Traced J (l ++ es)) : Traced J l := by
  intro before e after heq
  exact h before e (after ++ es) (by rw [heq]; simp)

/-- What justified an entry. -/
theorem Traced.of_mem (h : Traced J l) (he : e ∈ l) : ∃ before after, l = before ++ e :: after ∧ J before e := by
  obtain ⟨before, after, heq⟩ := List.append_of_mem he
  exact ⟨before, after, heq, h before e after heq⟩

end NotifyHub
