/-
  NotifyHub.Lib.Paths — the path a text names: whether it starts at a root, and what
  stands between its separators, `/` or `\`. Repeated and trailing separators do not
  count.

  `spell` is the text of a path with single slashes; `of_spell` reads it back.
-/

import NotifyHub.Lib.Text
import Mathlib.Data.List.TakeWhile

namespace NotifyHub

/-! ## White space -/

/-- The text ends in white space. -/
def endsBlank (s : JsString) : Bool := s.getLast?.any isSpace

/-- Trimming takes the white space off both ends. -/
theorem trim_of_head {s : JsString} (h : s.head?.any isSpace = false) :
    ∃ w, s = trim s ++ w ∧ (∀ c ∈ w, isSpace c = true) ∧ (w = [] ↔ endsBlank s = false) := by
  have hstart : trimStart s = s := by
    cases s with
    | nil => rfl
    | cons c s => exact List.dropWhile_cons_of_neg (by simpa using h)
  refine ⟨(s.reverse.takeWhile isSpace).reverse, ?_, fun c hc => ?_, ?_⟩
  · rw [trim, hstart, trimEnd, ← List.reverse_append, List.takeWhile_append_dropWhile, List.reverse_reverse]
  · exact List.mem_takeWhile_imp (List.mem_reverse.mp hc)
  · rw [List.reverse_eq_nil_iff, endsBlank, ← List.head?_reverse]
    cases s.reverse with
    | nil => simp
    | cons c r => cases hc : isSpace c <;> simp [hc]

theorem trim_eq_self {s : JsString} (h : s.head?.any isSpace = false) (he : endsBlank s = false) : trim s = s := by
  obtain ⟨w, hs, -, hw⟩ := trim_of_head h
  rw [hw.mpr he, List.append_nil] at hs
  exact hs.symm

theorem head_trim (s : JsString) : (trim s).head?.any isSpace = false := by
  have hstart : (trimStart s).head?.any isSpace = false := by
    have h := List.head?_dropWhile_not isSpace s
    rw [trimStart]
    cases hd : (s.dropWhile isSpace).head? with
    | none => rfl
    | some c => rw [hd] at h; simpa using h
  obtain ⟨w, hs, hw, -⟩ := trim_of_head hstart
  have htt : trim (trimStart s) = trim s := by
    rw [trim, trim]
    congr 1
    cases ht : trimStart s with
    | nil => rfl
    | cons c r => rw [ht] at hstart; exact List.dropWhile_cons_of_neg (by simpa using hstart)
  rw [htt] at hs
  cases ht : trim s with
  | nil => rfl
  | cons c r => rw [hs, ht] at hstart; exact hstart

theorem endsBlank_append {s t : JsString} (ht : t ≠ []) : endsBlank (s ++ t) = endsBlank t := by
  rw [endsBlank, endsBlank, List.getLast?_append_of_ne_nil _ ht]

/-! ## Separators -/

/-- `/` and `\` -/
def isSeparator (c : UInt16) : Bool := c == 47 || c == 92

/-- What may stand between two separators. -/
def IsSegment (s : JsString) : Prop := s ≠ [] ∧ ∀ c ∈ s, isSeparator c = false

instance (s : JsString) : Decidable (IsSegment s) := inferInstanceAs (Decidable (_ ∧ _))

/-- The segments of a text. -/
def cut (s : JsString) : List JsString := (s.splitOnP isSeparator).filter (· ≠ [])

theorem isSegment_cons {c : UInt16} {s : JsString} (hc : isSeparator c = false) (hs : ∀ d ∈ s, isSeparator d = false) :
    IsSegment (c :: s) :=
  ⟨List.cons_ne_nil _ _, fun d hd => by
    rcases List.mem_cons.mp hd with rfl | hd
    · exact hc
    · exact hs d hd⟩

@[simp] theorem cut_nil : cut [] = [] := rfl

theorem cut_separator {c : UInt16} (hc : isSeparator c = true) (s : JsString) : cut (c :: s) = cut s := by
  simp [cut, List.splitOnP_cons_eq_if_modifyHead, hc]

/-- A text that is one segment, or starts with one. -/
theorem cut_segment {s : JsString} (hs : IsSegment s) : cut s = [s] := by
  simp [cut, List.splitOnP_eq_singleton hs.2, hs.1]

theorem cut_segment_separator {s : JsString} (hs : IsSegment s) {c : UInt16} (hc : isSeparator c = true)
    (r : JsString) :
    cut (s ++ c :: r) = s :: cut r := by
  rw [cut, List.splitOnP_append_cons_of_forall_mem hs.2 c hc, List.filter_cons_of_pos (by simpa using hs.1)]
  rfl

/-- Every text starts with a separator, is one segment, or is one followed by a separator. -/
theorem cut_cases (s : JsString) : s = [] ∨ (∃ c r, isSeparator c = true ∧ s = c :: r) ∨ IsSegment s ∨
    ∃ t c r, IsSegment t ∧ isSeparator c = true ∧ s = t ++ c :: r := by
  induction s with
  | nil => exact Or.inl rfl
  | cons d s ih =>
    cases hd : isSeparator d with
    | true => exact Or.inr (Or.inl ⟨d, s, hd, rfl⟩)
    | false =>
      refine Or.inr (Or.inr ?_)
      rcases ih with rfl | ⟨c, r, hc, rfl⟩ | hs | ⟨t, c, r, ht, hc, rfl⟩
      · exact Or.inl (isSegment_cons hd nofun)
      · exact Or.inr ⟨[d], c, r, isSegment_cons hd nofun, hc, rfl⟩
      · exact Or.inl (isSegment_cons hd hs.2)
      · exact Or.inr ⟨d :: t, c, r, isSegment_cons hd ht.2, hc, rfl⟩

theorem cut_isSegment : ∀ (s t : JsString), t ∈ cut s → IsSegment t := by
  intro s
  induction hn : s.length using Nat.strong_induction_on generalizing s with
  | _ n ih =>
    intro t ht
    rcases cut_cases s with rfl | ⟨c, r, hc, rfl⟩ | hs | ⟨u, c, r, hu, hc, rfl⟩
    · cases ht
    · rw [cut_separator hc] at ht
      exact ih r.length (by rw [← hn, List.length_cons]; omega) r rfl t ht
    · rw [cut_segment hs] at ht
      exact List.mem_singleton.mp ht ▸ hs
    · rw [cut_segment_separator hu hc] at ht
      rcases List.mem_cons.mp ht with rfl | ht
      · exact hu
      · exact ih r.length (by rw [← hn, List.length_append, List.length_cons]; omega) r rfl t ht

/-! ## Paths -/

def isDriveLetter (c : UInt16) : Bool := (65 ≤ c && c ≤ 90) || (97 ≤ c && c ≤ 122)

theorem isSeparator_of_isDriveLetter {c : UInt16} (hc : isDriveLetter c = true) : isSeparator c = false := by
  simp only [isDriveLetter, Bool.or_eq_true, Bool.and_eq_true, decide_eq_true_eq, UInt16.le_iff_toNat_le] at hc
  simp only [isSeparator, Bool.or_eq_false_iff, beq_eq_false_iff_ne]
  constructor <;> rintro rfl <;> simp at hc

theorem isSpace_of_isDriveLetter {c : UInt16} (hc : isDriveLetter c = true) : isSpace c = false := by
  simp only [isDriveLetter, Bool.or_eq_true, Bool.and_eq_true, decide_eq_true_eq, UInt16.le_iff_toNat_le,
    UInt16.toNat_ofNat] at hc
  simp only [isSpace, Bool.or_eq_false_iff, Bool.and_eq_false_iff, decide_eq_false_iff_not, beq_eq_false_iff_ne,
    UInt16.le_iff_toNat_le, ne_eq, ← UInt16.toNat_inj, UInt16.toNat_ofNat]
  omega

structure Path where
  absolute : Bool
  segments : List JsString
  are_segments : ∀ s ∈ segments, IsSegment s
  deriving DecidableEq

namespace Path

@[ext] theorem ext {p q : Path} (ha : p.absolute = q.absolute) (hs : p.segments = q.segments) : p = q := by
  cases p; cases q; cases ha; cases hs; rfl

/-- The path a text names. -/
def of (s : JsString) : Path := ⟨s.head?.any isSeparator, cut s, cut_isSegment s⟩

def spell (p : Path) : JsString := (if p.absolute then [47] else []) ++ [47].intercalate p.segments

theorem isSeparator_slash : isSeparator 47 = true := rfl

theorem intercalate_cons_ne_nil {s : JsString} {l : List JsString} (hs : s ≠ []) : [47].intercalate (s :: l) ≠ [] := by
  cases l with
  | nil => simpa using hs
  | cons t l => simp

theorem cut_intercalate : ∀ {l : List JsString}, (∀ s ∈ l, IsSegment s) → cut ([47].intercalate l) = l
  | [], _ => rfl
  | [s], h => by
    rw [List.intercalate_singleton]
    exact cut_segment (h s (by simp))
  | s :: t :: l, h => by
    rw [List.intercalate_cons_cons, List.append_assoc]
    rw [show [47] ++ [47].intercalate (t :: l) = 47 :: [47].intercalate (t :: l) from rfl,
      cut_segment_separator (h s (by simp)) isSeparator_slash, cut_intercalate fun u hu =>
        h u (List.mem_cons_of_mem _ hu)]

theorem head_intercalate {l : List JsString} (h : ∀ s ∈ l, IsSegment s) :
    ([47].intercalate l).head?.any isSeparator = false := by
  cases l with
  | nil => rfl
  | cons s l =>
    obtain ⟨c, s, rfl⟩ := List.exists_cons_of_ne_nil (h s (by simp)).1
    have hc : isSeparator c = false := (h (c :: s) (by simp)).2 c (by simp)
    rw [List.intercalate_cons_cons_left]
    exact hc

/-- A spelled path is read back. -/
theorem of_spell (p : Path) : of p.spell = p := by
  cases ha : p.absolute with
  | true =>
    refine Path.ext ?_ ?_
    · rw [spell, ha]; rfl
    · show cut p.spell = _
      rw [spell, ha, if_pos rfl, List.singleton_append, cut_separator isSeparator_slash]
      exact cut_intercalate p.are_segments
  | false =>
    refine Path.ext ?_ ?_
    · rw [spell, ha, if_neg Bool.false_ne_true, List.nil_append]
      exact head_intercalate p.are_segments
    · show cut p.spell = _
      rw [spell, ha, if_neg Bool.false_ne_true, List.nil_append]
      exact cut_intercalate p.are_segments

/-- A path with a segment does not end in a separator. -/
theorem getLast_spell {p : Path} (h : p.segments ≠ []) : ∃ t c, isSeparator c = false ∧ p.spell = t ++ [c] := by
  have hlast : ∀ {l : List JsString}, (∀ s ∈ l, IsSegment s) → l ≠ [] →
      ∃ t c, isSeparator c = false ∧ [47].intercalate l = t ++ [c] := by
    intro l
    induction l with
    | nil => exact fun _ h => absurd rfl h
    | cons s l ih =>
      intro hl _
      by_cases hnil : l = []
      · obtain ⟨t, c, rfl⟩ := List.eq_nil_or_concat s |>.resolve_left (hl s (by simp)).1
        rw [List.concat_eq_append, hnil, List.intercalate_singleton]
        exact ⟨t, c, (hl (t.concat c) List.mem_cons_self).2 c (by simp), rfl⟩
      · obtain ⟨t, c, hc, ht⟩ := ih (fun u hu => hl u (List.mem_cons_of_mem _ hu)) hnil
        rw [List.intercalate_cons_of_ne_nil hnil, ht]
        exact ⟨s ++ [47] ++ t, c, hc, by simp⟩
  obtain ⟨t, c, hc, ht⟩ := hlast p.are_segments h
  exact ⟨(if p.absolute then [47] else []) ++ t, c, hc, by rw [spell, ht, List.append_assoc]⟩

theorem backslash_not_mem_spell (p : Path) : 92 ∉ p.spell := by
  have hl : ∀ {l : List JsString}, (∀ s ∈ l, IsSegment s) → 92 ∉ [47].intercalate l := by
    intro l
    induction l with
    | nil => exact fun _ => nofun
    | cons s l ih =>
      intro hl hmem
      have hs : 92 ∉ s := fun h => absurd ((hl s (by simp)).2 92 h) (by decide)
      by_cases hnil : l = []
      · rw [hnil, List.intercalate_singleton] at hmem
        exact hs hmem
      · rw [List.intercalate_cons_of_ne_nil hnil, List.mem_append, List.mem_append] at hmem
        rcases hmem with (h | h) | h
        · exact hs h
        · exact absurd (List.mem_singleton.mp h) (by decide)
        · exact ih (fun t ht => hl t (List.mem_cons_of_mem _ ht)) h
  intro hmem
  rcases List.mem_append.mp hmem with h | h
  · split at h
    · exact absurd (List.mem_singleton.mp h) (by decide)
    · cases h
  · exact hl p.are_segments h

theorem spell_inj {p q : Path} (h : p.spell = q.spell) : p = q := by
  rw [← of_spell p, h, of_spell]

/-- The spelling ends in white space where the last segment does. -/
theorem endsBlank_spell (p : Path) : endsBlank p.spell = p.segments.getLast?.any endsBlank := by
  have hl : ∀ {l : List JsString}, (∀ s ∈ l, IsSegment s) → l ≠ [] →
      endsBlank ([47].intercalate l) = l.getLast?.any endsBlank := by
    intro l
    induction l with
    | nil => exact fun _ h => absurd rfl h
    | cons s l ih =>
      intro hl _
      by_cases hnil : l = []
      · subst hnil; simp
      · have hne : [47].intercalate l ≠ [] := by
          obtain ⟨t, l, rfl⟩ := List.exists_cons_of_ne_nil hnil
          exact intercalate_cons_ne_nil (hl t (by simp)).1
        rw [List.intercalate_cons_of_ne_nil hnil, endsBlank_append hne,
          ih (fun u hu => hl u (List.mem_cons_of_mem _ hu)) hnil,
          List.getLast?_cons_of_ne_nil hnil]
  by_cases hnil : p.segments = []
  · rw [Path.spell, hnil]
    cases p.absolute <;> rfl
  · obtain ⟨s, l, hs⟩ := List.exists_cons_of_ne_nil hnil
    have hne : [47].intercalate p.segments ≠ [] := by
      rw [hs]
      exact intercalate_cons_ne_nil (p.are_segments s (by rw [hs]; simp)).1
    rw [Path.spell, endsBlank_append hne, hl p.are_segments hnil]

/-! ### Drives -/

/-- The path starts with a drive letter and a colon. -/
def namesDrive (p : Path) : Bool := !p.absolute &&
  match p.segments with
  | (c :: 58 :: _) :: _ => isDriveLetter c
  | _ => false

/-- The path names something below a drive. -/
def belowDrive (p : Path) : Bool := !p.absolute &&
  match p.segments with
  | [c, 58] :: _ :: _ => isDriveLetter c
  | _ => false

theorem belowDrive_eq_true {p : Path} : p.belowDrive = true ↔
    p.absolute = false ∧ ∃ c s rest, isDriveLetter c = true ∧ p.segments = [c, 58] :: s :: rest := by
  rw [belowDrive, Bool.and_eq_true, Bool.not_eq_true']
  refine and_congr_right fun _ => ?_
  constructor
  · intro h
    split at h
    · rename_i c s rest hseg
      exact ⟨c, s, rest, h, hseg⟩
    · cases h
  · rintro ⟨c, s, rest, hc, hseg⟩
    rw [hseg]; exact hc

end Path

end NotifyHub
