/-
  NotifyHub.Lib.Replace — replacing every occurrence of a text in another: the pieces
  between the occurrences, found from the left without overlap (`split`), joined by what
  comes in their place (`replaceAll`).

  No piece holds the text that was searched (`not_infix_of_mem_split`). What is put in
  stands between two marks. A word in which neither mark occurs lies in the result only
  where it lay before, or inside what was put in (`infix_replaceAll`): no replacement
  makes an occurrence of it out of what surrounds it. So, of texts replaced one after the
  other, none that is such a word is left (`not_infix_replaceEach`).

  A word of letters does not lie in a text whose runs of letters are all shorter
  (`not_infix_of_runsBelow`).
-/

import Mathlib.Data.List.Infix

namespace NotifyHub.Replace

variable {α : Type}

/-! ## Words and marks -/

/-- A word without the mark lies on one side of it. -/
theorem infix_append_cons {w : List α} {mark : α} (hw : mark ∉ w) {before after : List α}
    (h : w <:+: before ++ mark :: after) :
    w <:+: before ∨ w <:+: after := by
  rcases List.infix_append_iff.mp h with h | h | ⟨l, r, rfl, hl, hr⟩
  · exact Or.inl h
  · rcases List.infix_cons_iff.mp h with h | h
    · cases w with
      | nil => exact Or.inr List.nil_infix
      | cons c w =>
        rw [List.cons_prefix_cons] at h
        exact absurd (by simp [h.1]) hw
    · exact Or.inr h
  · cases r with
    | nil =>
      rw [List.append_nil]
      exact Or.inl hl.isInfix
    | cons c r =>
      rw [List.cons_prefix_cons] at hr
      exact absurd (by simp [hr.1]) hw

/-- The runs of `letter` in the text are shorter than `n`, the first with the `run` letters before it. -/
def runsBelow (letter : α → Bool) (n : Nat) : Nat → List α → Bool
  | run, [] => run < n
  | run, c :: text => if letter c then runsBelow letter n (run + 1) text else run < n && runsBelow letter n 0 text

theorem not_infix_of_runsBelow {letter : α → Bool} {n : Nat} {w : List α} (hlen : n ≤ w.length)
    (hw : ∀ c ∈ w, letter c = true)
    (run text : List α) (h : runsBelow letter n run.length text = true) : ¬ w <:+: run ++ text := by
  induction text generalizing run with
  | nil =>
    intro hin
    simp only [runsBelow, decide_eq_true_eq] at h
    have := hin.length_le
    rw [List.append_nil] at this
    omega
  | cons c text ih =>
    unfold runsBelow at h
    split at h
    · have := ih (run ++ [c]) (by rwa [List.length_append])
      rwa [List.append_assoc] at this
    · rename_i hc
      rw [Bool.and_eq_true, decide_eq_true_eq] at h
      intro hin
      rcases infix_append_cons (fun hmem => hc (hw c hmem)) hin with hin | hin
      · have := hin.length_le
        omega
      · exact ih [] h.2 hin

/-- A glue: a text between two marks. -/
structure Glue (α : Type) where
  opening : α
  inner : List α
  closing : α

def Glue.text (g : Glue α) : List α := g.opening :: (g.inner ++ [g.closing])

/-- A word that no mark of the glue is in, and that the glue does not hold. -/
structure Glue.Spares (g : Glue α) (w : List α) : Prop where
  opening : g.opening ∉ w
  closing : g.closing ∉ w
  inner : ¬ w <:+: g.inner

variable {g : Glue α} {w : List α}

theorem infix_append_glue (hw : g.Spares w) {before after : List α} (h : w <:+: before ++ g.text ++ after) :
    w <:+: before ∨ w <:+: after := by
  rw [Glue.text, List.append_assoc, List.cons_append, List.append_assoc] at h
  rcases infix_append_cons hw.opening h with h | h
  · exact Or.inl h
  · rcases infix_append_cons hw.closing h with h | h
    · exact absurd h hw.inner
    · exact Or.inr h

theorem infix_intercalate (hw : g.Spares w) (hne : w ≠ []) {pieces : List (List α)}
    (h : w <:+: g.text.intercalate pieces) :
    ∃ p ∈ pieces, w <:+: p := by
  induction pieces with
  | nil => exact absurd (List.infix_nil.mp h) hne
  | cons p pieces ih =>
    cases pieces with
    | nil => exact ⟨p, by simp, by simpa using h⟩
    | cons q pieces =>
      rw [List.intercalate_cons_cons] at h
      rcases infix_append_glue hw h with h | h
      · exact ⟨p, by simp, h⟩
      · obtain ⟨r, hr, hin⟩ := ih h
        exact ⟨r, List.mem_cons_of_mem p hr, hin⟩

/-! ## The pieces -/

variable {sep text piece p : List α} {skip : Nat}

/-- No occurrence starts in the piece that is being read. -/
def NoStart (sep piece text : List α) : Prop := ∀ i < piece.length, ¬ sep <+: (piece ++ text).drop i

theorem noStart_nil : NoStart sep [] text := nofun

theorem NoStart.not_infix (h : NoStart sep piece text) (hsep : sep ≠ []) : ¬ sep <:+: piece := by
  rintro ⟨before, after, rfl⟩
  have hpos := List.length_pos_of_ne_nil hsep
  refine h before.length (by simp only [List.length_append]; omega) ?_
  rw [List.append_assoc, List.append_assoc, List.drop_left]
  exact List.prefix_append _ _

theorem NoStart.snoc {c : α} (h : NoStart sep piece (c :: text)) (hsep : ¬ sep <+: c :: text) :
    NoStart sep (piece ++ [c]) text := by
  intro i hi
  rw [List.length_append, List.length_singleton] at hi
  rw [List.append_assoc, List.singleton_append]
  rcases Nat.lt_succ_iff_lt_or_eq.mp hi with hi | rfl
  · exact h i hi
  · rwa [List.drop_left]

variable [DecidableEq α]

/-- The pieces from here on: `skip` units of an occurrence are still to be passed over,
    `piece` is what was read since the last one. -/
def piecesFrom (sep : List α) : Nat → List α → List α → List (List α)
  | _, piece, [] => [piece]
  | skip + 1, piece, _ :: text => piecesFrom sep skip piece text
  | 0, piece, c :: text =>
    if sep <+: c :: text then piece :: piecesFrom sep (sep.length - 1) [] text else piecesFrom sep 0 (piece ++ [c]) text

/-- The pieces of a text between the occurrences of a nonempty `sep`. -/
def split (sep text : List α) : List (List α) := piecesFrom sep 0 [] text

theorem infix_of_mem_piecesFrom (hskip : skip = 0 ∨ piece = []) (h : p ∈ piecesFrom sep skip piece text) :
    p <:+: piece ++ text := by
  fun_induction piecesFrom sep skip piece text with
  | case1 skip piece =>
    rw [List.mem_singleton.mp h, List.append_nil]
  | case2 piece skip c text ih =>
    obtain rfl := hskip.resolve_left (by omega)
    exact List.infix_cons (ih (Or.inr rfl) h)
  | case3 piece c text hsep ih =>
    rcases List.mem_cons.mp h with rfl | h
    · exact List.infix_append_left
    · exact List.infix_append_of_infix_right (List.infix_cons (ih (Or.inr rfl) h))
  | case4 piece c text hsep ih =>
    have := ih (Or.inl rfl) h
    rwa [List.append_assoc] at this

theorem not_infix_of_mem_piecesFrom (hsep : sep ≠ []) (hskip : skip = 0 ∨ piece = []) (hstart : NoStart sep piece text)
    (h : p ∈ piecesFrom sep skip piece text) : ¬ sep <:+: p := by
  fun_induction piecesFrom sep skip piece text with
  | case1 skip piece =>
    rw [List.mem_singleton.mp h]
    exact hstart.not_infix hsep
  | case2 piece skip c text ih =>
    obtain rfl := hskip.resolve_left (by omega)
    exact ih (Or.inr rfl) noStart_nil h
  | case3 piece c text _ ih =>
    rcases List.mem_cons.mp h with rfl | h
    · exact hstart.not_infix hsep
    · exact ih (Or.inr rfl) noStart_nil h
  | case4 piece c text hno ih => exact ih (Or.inl rfl) (hstart.snoc hno) h

theorem infix_of_mem_split (h : p ∈ split sep text) : p <:+: text := infix_of_mem_piecesFrom (Or.inl rfl) h

/-- No occurrence of what was searched is left in a piece. -/
theorem not_infix_of_mem_split (hsep : sep ≠ []) (h : p ∈ split sep text) : ¬ sep <:+: p :=
  not_infix_of_mem_piecesFrom hsep (Or.inl rfl) noStart_nil h

/-! ## Replacing -/

/-- The text with the glue in the place of each occurrence of `sep`; an empty `sep`, or
    one that does not occur, changes nothing. -/
def replaceAll (g : Glue α) (text sep : List α) : List α :=
  if sep ≠ [] ∧ sep <:+: text then g.text.intercalate (split sep text) else text

theorem infix_replaceAll (hw : g.Spares w) (hne : w ≠ []) (h : w <:+: replaceAll g text sep) : w <:+: text := by
  unfold replaceAll at h
  split at h
  · obtain ⟨p, hp, hin⟩ := infix_intercalate hw hne h
    exact hin.trans (infix_of_mem_split hp)
  · exact h

theorem not_infix_replaceAll (hw : g.Spares w) (hne : w ≠ []) : ¬ w <:+: replaceAll g text w := by
  intro h
  unfold replaceAll at h
  split at h
  · obtain ⟨p, hp, hin⟩ := infix_intercalate hw hne h
    exact not_infix_of_mem_split hne hp hin
  · rename_i hno
    exact hno ⟨hne, h⟩

/-- Several texts, one after the other. -/
def replaceEach (g : Glue α) (text : List α) (seps : List (List α)) : List α := seps.foldl (replaceAll g) text

theorem infix_replaceEach (hw : g.Spares w) (hne : w ≠ []) {seps : List (List α)} (h : w <:+: replaceEach g text seps) :
    w <:+: text := by
  induction seps generalizing text with
  | nil => exact h
  | cons sep seps ih => exact infix_replaceAll hw hne (ih h)

/-- A word that is replaced does not come back, whatever is replaced before and after it. -/
theorem not_infix_replaceEach (hw : g.Spares w) (hne : w ≠ []) {seps : List (List α)} (hmem : w ∈ seps) :
    ¬ w <:+: replaceEach g text seps := by
  induction seps generalizing text with
  | nil => cases hmem
  | cons sep seps ih =>
    rcases List.mem_cons.mp hmem with rfl | hmem
    · exact fun h => not_infix_replaceAll hw hne (infix_replaceEach hw hne h)
    · exact ih hmem

end NotifyHub.Replace
