/-
  NotifyHub.Lib.Surrogates — strings without lone surrogates, unit by unit: what may be
  put in front of one (`wellFormed_cons`), taken from its end (`WellFormed.of_snoc`), and
  where one may be cut (`wellFormed_take`).
-/

import NotifyHub.Lib.Utf8

namespace NotifyHub.Utf8

def isSurrogate (c : UInt16) : Bool := isHighSurrogate c || isLowSurrogate c

variable {c d : UInt16} {s : JsString}

theorem toWellFormed_pair (h : (isHighSurrogate c && isLowSurrogate d) = true) (s : JsString) :
    toWellFormed (c :: d :: s) = c :: d :: toWellFormed s := by
  have hpair := utf16_pair h
  simp only [toWellFormed, scalars, codePoints, h, if_true, List.map_cons, List.flatMap_cons,
    hpair, List.cons_append, List.nil_append]

theorem toWellFormed_unit (h : isSurrogate c = false) (s : JsString) : toWellFormed (c :: s) = c :: toWellFormed s := by
  rw [isSurrogate, Bool.or_eq_false_iff] at h
  have hunit : utf16 (scalarValue [c]) = [c] := by
    have := wellFormed_unit h.1 h.2
    simpa [WellFormed, toWellFormed, scalars, codePoints] using this
  simp only [toWellFormed, scalars, codePoints_cons h.1, List.map_cons, List.flatMap_cons,
    hunit, List.cons_append, List.nil_append]

theorem wellFormed_nil : WellFormed [] := rfl

theorem wellFormed_cons_pair (h : (isHighSurrogate c && isLowSurrogate d) = true) : WellFormed (c :: d :: s) ↔
    WellFormed s := by
  rw [WellFormed, toWellFormed_pair h]
  simp [WellFormed]

theorem wellFormed_cons (h : isSurrogate c = false) : WellFormed (c :: s) ↔ WellFormed s := by
  rw [WellFormed, toWellFormed_unit h]
  simp [WellFormed]

/-- A surrogate that no partner follows is lone. -/
theorem unit_of_wellFormed (h : WellFormed (c :: s))
    (hs : ∀ d t, s = d :: t → (isHighSurrogate c && isLowSurrogate d) = false) :
    isSurrogate c = false := by
  cases hc : isSurrogate c with
  | false => rfl
  | true =>
    have hvalue : scalarValue [c] = replacement := by
      rw [scalarValue_unit]
      exact if_pos hc
    have hfirst : ∃ t, toWellFormed (c :: s) = 0xfffd :: t := by
      cases s with
      | nil => exact ⟨[], by simp [toWellFormed, scalars, codePoints, hvalue, utf16_replacement]⟩
      | cons d t =>
        have hno := hs d t rfl
        exact ⟨toWellFormed (d :: t), by
          simp [toWellFormed, scalars, codePoints, hno, hvalue, utf16_replacement]⟩
    obtain ⟨t, ht⟩ := hfirst
    rw [WellFormed, ht] at h
    rw [← (List.cons.inj h).1] at hc
    exact absurd hc (by decide)

/-- A unit that is no surrogate is taken from the end. -/
theorem WellFormed.of_snoc {e : UInt16} (he : isSurrogate e = false) (h : WellFormed (s ++ [e])) : WellFormed s := by
  induction s using codePoints.induct with
  | case1 => exact wellFormed_nil
  | case2 c =>
    have hc : isSurrogate c = false := by
      refine unit_of_wellFormed (s := [e]) h fun d t hd => ?_
      cases hd
      rw [isSurrogate, Bool.or_eq_false_iff] at he
      rw [he.2, Bool.and_false]
    exact (wellFormed_cons hc).mpr wellFormed_nil
  | case3 c d s hpair ih => exact (wellFormed_cons_pair hpair).mpr (ih ((wellFormed_cons_pair hpair).mp h))
  | case4 c d s hpair ih =>
    have hc : isSurrogate c = false := unit_of_wellFormed (s := d :: s ++ [e]) h fun d' t hd => by
      cases hd
      exact Bool.eq_false_iff.mpr hpair
    exact (wellFormed_cons hc).mpr (ih ((wellFormed_cons hc).mp h))

theorem not_wellFormed_high (h : isHighSurrogate c = true) : ¬ WellFormed [c] := by
  intro hw
  have := unit_of_wellFormed hw nofun
  rw [isSurrogate, h, Bool.true_or] at this
  cases this

/-- A well-formed string may be cut where no pair is. -/
theorem wellFormed_take (h : WellFormed s) (n : Nat) :
    WellFormed (s.take n) ↔ ∀ c, (s.take n).getLast? = some c → isHighSurrogate c = false := by
  induction s using codePoints.induct generalizing n with
  | case1 => simp [wellFormed_nil]
  | case2 c =>
    have hc := unit_of_wellFormed h (by rintro _ _ ⟨⟩)
    cases n with
    | zero => exact iff_of_true wellFormed_nil (by rintro _ ⟨⟩)
    | succ n =>
      refine iff_of_true (by simpa using h) fun c' hc' => ?_
      simp only [List.take_succ_cons, List.take_nil, List.getLast?_singleton, Option.some.injEq] at hc'
      rw [isSurrogate, Bool.or_eq_false_iff] at hc
      exact hc' ▸ hc.1
  | case3 c d s hpair ih =>
    obtain ⟨hhigh, hlow⟩ := Bool.and_eq_true_iff.mp hpair
    cases n with
    | zero => exact iff_of_true wellFormed_nil (by rintro _ ⟨⟩)
    | succ n =>
      cases n with
      | zero =>
        refine iff_of_false (not_wellFormed_high hhigh) fun hall => ?_
        have := hall c rfl
        rw [hhigh] at this
        cases this
      | succ n =>
        rw [List.take_succ_cons, List.take_succ_cons, wellFormed_cons_pair hpair,
          ih ((wellFormed_cons_pair hpair).mp h)]
        cases ht : s.take n with
        | nil =>
          refine iff_of_true (by rintro _ ⟨⟩) fun c' hc' => ?_
          simp only [List.getLast?_cons_cons, List.getLast?_singleton, Option.some.injEq] at hc'
          rw [← hc']
          rw [isLowSurrogate_iff] at hlow
          rw [Bool.eq_false_iff, ne_eq, isHighSurrogate_iff]
          omega
        | cons e t => rw [List.getLast?_cons_cons, List.getLast?_cons_cons]
  | case4 c d s hpair ih =>
    have hc := unit_of_wellFormed h fun d' t hd => by
      cases hd
      exact Bool.eq_false_iff.mpr hpair
    cases n with
    | zero => exact iff_of_true wellFormed_nil (by rintro _ ⟨⟩)
    | succ n =>
      rw [List.take_succ_cons, wellFormed_cons hc, ih ((wellFormed_cons hc).mp h)]
      cases ht : (d :: s).take n with
      | nil =>
        refine iff_of_true (by rintro _ ⟨⟩) fun c' hc' => ?_
        simp only [List.getLast?_singleton, Option.some.injEq] at hc'
        rw [isSurrogate, Bool.or_eq_false_iff] at hc
        exact hc' ▸ hc.1
      | cons e t => rw [List.getLast?_cons_cons]

end NotifyHub.Utf8
