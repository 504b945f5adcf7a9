/-
  NotifyHub.Control.Directories — what the directory in an ownership key tells apart.

  `ownershipKey` spells the path of the trimmed directory with single slashes
  (`stripped_eq`), and lower-cases what then starts with a drive and a slash.

  Proved (`directories_identified`): two spellings of one path give one key, except
  that what starts with a drive letter must also name something below the drive
  (`BelowDrive`), or be written in one case: the root of a drive has lost its slash
  before the test for it. Normalizing twice is normalizing once exactly when no white
  space stands before the trailing separators. Two records with one path of this kind
  are never both controllable; two with the root of one drive are
  (`drive_root_has_two_owners`).
-/

import NotifyHub.Control.Ownership
import NotifyHub.Lib.Paths

namespace NotifyHub.Control

variable (D : Deps)

/-! ## The directory of a key -/

/-- The directory after its trailing slash is removed. -/
def strippedDirectory (directory : JsString) : JsString :=
  let directory := collapseSlashes (trim directory)
  if directory.length > 1 then dropTrailingSlash directory else directory

/-- The directory as `ownershipKey` has it. -/
def normalizeDirectory (directory : JsString) : JsString :=
  let directory := strippedDirectory directory
  if startsWithDrive directory then D.toLocaleLowerCase directory else directory

theorem ownershipKey_eq (u : UserId) (r : RegisterMessage) : ownershipKey D u r =
    joinNul u.chars (joinNul (D.toLocaleLowerCase (trim r.machine)) (normalizeDirectory D r.directory)) := rfl

variable {D}

/-! ## Slashes -/

theorem collapse_char {c : UInt16} (hc : isSeparator c = false) (s : JsString) :
    collapseSlashes (c :: s) = c :: collapseSlashes s := by
  have h : c ≠ 47 ∧ c ≠ 92 := by simpa [isSeparator] using hc
  rw [collapseSlashes, if_neg h.2]
  cases collapseSlashes s with
  | nil => rfl
  | cons d r => exact if_neg fun hcd => h.1 hcd.1

theorem collapse_segment {s : JsString} (hs : ∀ c ∈ s, isSeparator c = false) (r : JsString) :
    collapseSlashes (s ++ r) = s ++ collapseSlashes r := by
  induction s with
  | nil => rfl
  | cons c s ih =>
    rw [List.cons_append, collapse_char (hs c (by simp)), ih fun d hd => hs d (List.mem_cons_of_mem _ hd),
      List.cons_append]

theorem collapse_separator {c : UInt16} (hc : isSeparator c = true) (s : JsString) :
    collapseSlashes (c :: s) = if s.head?.any isSeparator then collapseSlashes s else 47 :: collapseSlashes s := by
  have h : (if c = 92 then 47 else c) = 47 := by
    have : c = 47 ∨ c = 92 := by simpa [isSeparator] using hc
    rcases this with rfl | rfl <;> rfl
  rw [collapseSlashes, h]
  cases s with
  | nil => rfl
  | cons d s =>
    cases hd : isSeparator d with
    | false =>
      have hne : d ≠ 47 := by simp only [isSeparator, Bool.or_eq_false_iff, beq_eq_false_iff_ne] at hd; exact hd.1
      simp [collapse_char hd, hd, hne]
    | true =>
      obtain ⟨r, hr⟩ : ∃ r, collapseSlashes (d :: s) = 47 :: r := by
        have hd' : (if d = 92 then 47 else d) = 47 := by
          have : d = 47 ∨ d = 92 := by simpa [isSeparator] using hd
          rcases this with rfl | rfl <;> rfl
        rw [collapseSlashes, hd']
        cases collapseSlashes s with
        | nil => exact ⟨_, rfl⟩
        | cons e r =>
          by_cases he : e = 47
          · exact ⟨r, by rw [he]; rfl⟩
          · exact ⟨e :: r, by simp [he]⟩
      simp [hr, hd]

theorem spell_separator {c : UInt16} (hc : isSeparator c = true) (s : JsString) :
    (Path.of (c :: s)).spell = 47 :: [47].intercalate (cut s) := by
  have ha : (Path.of (c :: s)).absolute = true := hc
  rw [Path.spell, ha]
  show [47] ++ [47].intercalate (cut (c :: s)) = _
  rw [cut_separator hc]; rfl

/-- Collapsing leaves the spelling of the path, and one trailing slash where there was any. -/
theorem collapse_cases (s : JsString) : collapseSlashes s = (Path.of s).spell ∨
    (collapseSlashes s = (Path.of s).spell ++ [47] ∧ cut s ≠ []) := by
  induction hn : s.length using Nat.strong_induction_on generalizing s with
  | _ n ih =>
    rcases cut_cases s with rfl | ⟨c, r, hc, rfl⟩ | hs | ⟨t, c, r, ht, hc, rfl⟩
    · exact Or.inl rfl
    · have hr := ih r.length (by rw [← hn, List.length_cons]; omega) r rfl
      rw [collapse_separator hc, spell_separator hc, cut_separator hc]
      cases hh : r.head?.any isSeparator with
      | true =>
        obtain ⟨d, r, rfl⟩ : ∃ d r', r = d :: r' := by cases r with
          | nil => cases hh
          | cons d r' => exact ⟨d, r', rfl⟩
        have hd : isSeparator d = true := hh
        rw [spell_separator hd, cut_separator hd] at hr
        rw [cut_separator hd]
        exact hr
      | false =>
        have hspell : (Path.of r).spell = [47].intercalate (cut r) := by
          rw [Path.spell, show (Path.of r).absolute = false from hh]; rfl
        rw [hspell] at hr
        rcases hr with hr | ⟨hr, hne⟩
        · exact Or.inl (by rw [hr]; rfl)
        · exact Or.inr ⟨by rw [hr]; rfl, hne⟩
    · have hhead : s.head?.any isSeparator = false := by
        obtain ⟨c, s, rfl⟩ := List.exists_cons_of_ne_nil hs.1
        exact hs.2 c (by simp)
      have hseg := collapse_segment hs.2 []
      rw [List.append_nil] at hseg
      left
      rw [hseg, Path.spell, show (Path.of s).absolute = false from hhead]
      show s ++ [] = [] ++ [47].intercalate (cut s)
      rw [cut_segment hs, List.intercalate_singleton, List.append_nil, List.nil_append]
    · have hlt : (c :: r).length < n := by
        have := List.length_pos_of_ne_nil ht.1
        rw [← hn, List.length_append]; omega
      have hr := ih _ hlt (c :: r) rfl
      have hhead : (t ++ c :: r).head?.any isSeparator = false := by
        obtain ⟨d, t, rfl⟩ := List.exists_cons_of_ne_nil ht.1
        exact ht.2 d (by simp)
      have hspell : (Path.of (t ++ c :: r)).spell = [47].intercalate (t :: cut r) := by
        rw [Path.spell, show (Path.of (t ++ c :: r)).absolute = false from hhead]
        show [] ++ [47].intercalate (cut (t ++ c :: r)) = _
        rw [cut_segment_separator ht hc]; rfl
      rw [spell_separator hc, cut_separator hc] at hr
      rw [collapse_segment ht.2, hspell, cut_segment_separator ht hc]
      by_cases hnil : cut r = []
      · rw [hnil, List.intercalate_nil] at hr
        have hone : collapseSlashes (c :: r) = [47] := hr.resolve_right fun h => h.2 rfl
        exact Or.inr ⟨by rw [hone, hnil, List.intercalate_singleton], List.cons_ne_nil _ _⟩
      · rw [List.intercalate_cons_of_ne_nil hnil, List.append_assoc]
        rcases hr with hr | ⟨hr, -⟩
        · exact Or.inl (by rw [hr]; rfl)
        · exact Or.inr ⟨by rw [hr]; simp, List.cons_ne_nil _ _⟩

/-- Without its trailing slash a directory is the spelling of its path. -/
theorem stripped_eq (directory : JsString) : strippedDirectory directory = (Path.of (trim directory)).spell := by
  unfold strippedDirectory
  generalize trim directory = s
  dsimp only
  rcases collapse_cases s with h | ⟨h, hne⟩
  · rw [h]
    split
    · rename_i hlen
      have hne : cut s ≠ [] := by
        intro hnil
        have hle : (Path.of s).spell.length ≤ 1 := by
          rw [Path.spell, show (Path.of s).segments = [] from hnil]
          split <;> simp
        omega
      obtain ⟨t, c, hc, ht⟩ := Path.getLast_spell (p := Path.of s) hne
      rw [dropTrailingSlash, ht, List.getLast?_concat, if_neg]
      intro h47
      cases h47; cases hc
    · rfl
  · have hlen : 1 < (collapseSlashes s).length := by
      obtain ⟨t, c, -, ht⟩ := Path.getLast_spell (p := Path.of s) hne
      rw [h, ht]; simp
    rw [if_pos hlen, dropTrailingSlash, h, List.getLast?_concat, if_pos rfl, List.dropLast_concat]

/-! ## The ends -/

/-- The spelling starts with the character the text starts with, or with a slash for a separator. -/
theorem head_spell_of {s : JsString} (h : s.head?.any isSpace = false) :
    (Path.of s).spell.head?.any isSpace = false := by
  have hcollapse : (collapseSlashes s).head?.any isSpace = false := by
    cases s with
    | nil => rfl
    | cons c r =>
      cases hc : isSeparator c with
      | false => rw [collapse_char hc]; exact h
      | true =>
        rcases collapse_cases (c :: r) with hr | ⟨hr, -⟩ <;> rw [hr, spell_separator hc] <;> rfl
  rcases collapse_cases s with hs | ⟨hs, hne⟩
  · rw [hs] at hcollapse; exact hcollapse
  · obtain ⟨t, c, -, ht⟩ := Path.getLast_spell (p := Path.of s) hne
    rw [hs, ht] at hcollapse
    rw [ht]
    cases t with
    | nil => exact hcollapse
    | cons d t => exact hcollapse

theorem length_spell_of_le (s : JsString) : (Path.of s).spell.length ≤ s.length := by
  have hcollapse : ∀ s : JsString, (collapseSlashes s).length ≤ s.length := by
    intro s
    induction s with
    | nil => exact le_refl _
    | cons c s ih =>
      rw [collapseSlashes, List.length_cons]
      cases hs : collapseSlashes s with
      | nil => simp
      | cons d r =>
        rw [hs] at ih
        rw [List.length_cons] at ih
        dsimp only
        repeat' split
        all_goals simp only [List.length_cons]; omega
  have := hcollapse s
  rcases collapse_cases s with h | ⟨h, -⟩ <;> rw [h] at this
  · exact this
  · rw [List.length_append] at this; omega

/-! ## Drives -/

theorem startsWithDrive_eq_true {s : JsString} :
    startsWithDrive s = true ↔ ∃ c r, isDriveLetter c = true ∧ s = c :: 58 :: 47 :: r := by
  constructor
  · intro h
    unfold startsWithDrive at h
    split at h
    · rename_i c r
      exact ⟨c, r, h, rfl⟩
    · cases h
  · rintro ⟨c, r, hc, rfl⟩
    exact hc

/-- The test for a drive finds the paths below one. -/
theorem startsWithDrive_spell (p : Path) : startsWithDrive p.spell = p.belowDrive := by
  rw [Bool.eq_iff_iff, startsWithDrive_eq_true, Path.belowDrive_eq_true]
  constructor
  · rintro ⟨c, r, hc, hp⟩
    have hsep := isSeparator_of_isDriveLetter hc
    have hseg : IsSegment [c, 58] := isSegment_cons hsep (List.forall_mem_singleton.mpr (by decide))
    have hof := Path.of_spell p
    rw [hp] at hof
    have hcut : p.segments = [c, 58] :: cut r := by
      rw [← hof]
      exact cut_segment_separator hseg Path.isSeparator_slash r
    refine ⟨by rw [← hof]; exact hsep, c, ?_⟩
    cases hr : cut r with
    | cons s rest => exact ⟨s, rest, hc, by rw [hcut, hr]⟩
    | nil =>
      -- A drive alone is spelled without a slash.
      have habs : p.absolute = false := by rw [← hof]; exact hsep
      rw [Path.spell, habs, hcut, hr] at hp
      cases hp
  · rintro ⟨ha, c, s, rest, hc, hseg⟩
    refine ⟨c, [47].intercalate (s :: rest), hc, ?_⟩
    rw [Path.spell, ha, hseg, List.intercalate_cons_cons]; rfl

/-! ## Lower case

  What the language documents of `toLocaleLowerCase("en-US")`: it maps no character to
  or from a separator or white space, and looks at no text across a slash or white
  space at the end. -/

structure LowerCases (f : JsString → JsString) : Prop where
  nil : f [] = []
  ne_nil : ∀ s, s ≠ [] → f s ≠ []
  slash : ∀ s t, f (s ++ 47 :: t) = f s ++ 47 :: f t
  separators : ∀ s, (∀ c ∈ s, isSeparator c = false) → ∀ c ∈ f s, isSeparator c = false
  blanks : ∀ s w, (∀ c ∈ w, isSpace c = true) → f (s ++ w) = f s ++ w
  solid : ∀ s, s ≠ [] → endsBlank s = false → endsBlank (f s) = false
  letter : ∀ c, isDriveLetter c = true → ∃ c', isDriveLetter c' = true ∧ f [c, 58] = [c', 58]
  idempotent : ∀ s, f (f s) = f s

namespace LowerCases

variable {f : JsString → JsString} (hf : LowerCases f)
include hf

theorem segment {s : JsString} (h : IsSegment s) : IsSegment (f s) := ⟨hf.ne_nil s h.1, hf.separators s h.2⟩

theorem drive {s : JsString} (h : startsWithDrive s = true) : startsWithDrive (f s) = true := by
  obtain ⟨c, r, hc, rfl⟩ := startsWithDrive_eq_true.mp h
  obtain ⟨c', hc', hf'⟩ := hf.letter c hc
  have hs := hf.slash [c, 58] r
  rw [hf'] at hs
  exact startsWithDrive_eq_true.mpr ⟨c', f r, hc', hs⟩

theorem intercalate : ∀ l : List JsString, f ([47].intercalate l) = [47].intercalate (l.map f)
  | [] => hf.nil
  | [s] => by simp
  | s :: t :: l => by
    have ih := intercalate (t :: l)
    rw [List.map_cons, List.map_cons] at *
    rw [List.intercalate_cons_cons, List.intercalate_cons_cons, List.append_assoc, List.append_assoc, ← ih]
    exact hf.slash s _

/-- The path with each segment in lower case. -/
def lower (p : Path) : Path :=
  ⟨p.absolute, p.segments.map f, fun s hs => by
    obtain ⟨t, ht, rfl⟩ := List.mem_map.mp hs
    exact hf.segment (p.are_segments t ht)⟩

theorem spell (p : Path) : f p.spell = (hf.lower p).spell := by
  have hl := hf.intercalate p.segments
  rw [Path.spell, Path.spell]
  show f ((if p.absolute = true then [47] else []) ++ [47].intercalate p.segments) =
    (if p.absolute = true then [47] else []) ++ [47].intercalate (p.segments.map f)
  rw [← hl]
  split
  · have hs := hf.slash [] ([47].intercalate p.segments)
    rw [hf.nil] at hs
    exact hs
  · rfl

/-- Without backslashes, the segments of the lower-case text are those in lower case. -/
theorem cut {s : JsString} (hs : 92 ∉ s) : cut (f s) = (NotifyHub.cut s).map f := by
  induction hn : s.length using Nat.strong_induction_on generalizing s with
  | _ n ih =>
    have hslash : ∀ {c}, isSeparator c = true → c ∈ s → c = 47 := by
      intro c hc hmem
      have : c = 47 ∨ c = 92 := by simpa [isSeparator] using hc
      exact this.resolve_right fun h => hs (h ▸ hmem)
    rcases cut_cases s with rfl | ⟨c, r, hc, rfl⟩ | hseg | ⟨t, c, r, ht, hc, rfl⟩
    · rw [hf.nil]; rfl
    · obtain rfl := hslash hc (by simp)
      have hr := ih r.length (by rw [← hn, List.length_cons]; omega) (fun h => hs (List.mem_cons_of_mem _ h)) rfl
      have hfs := hf.slash [] r
      rw [hf.nil, List.nil_append, List.nil_append] at hfs
      rw [hfs, cut_separator rfl, cut_separator rfl, hr]
    · rw [cut_segment hseg, cut_segment (hf.segment hseg)]; rfl
    · obtain rfl := hslash hc (by simp)
      have hr := ih r.length (by rw [← hn, List.length_append, List.length_cons]; omega)
        (fun h => hs (List.mem_append_right _ (List.mem_cons_of_mem _ h))) rfl
      rw [hf.slash, cut_segment_separator (hf.segment ht) rfl, cut_segment_separator ht rfl, hr]; rfl

theorem ends {s : JsString} (hs : s ≠ []) : endsBlank (f s) = endsBlank s := by
  cases he : endsBlank s with
  | false => exact hf.solid s hs he
  | true =>
    obtain ⟨t, c, rfl⟩ := (List.eq_nil_or_concat s).resolve_left hs
    rw [List.concat_eq_append] at he ⊢
    have hc : isSpace c = true := by simpa [endsBlank] using he
    rw [hf.blanks t [c] (by simpa using hc), endsBlank_append (List.cons_ne_nil _ _)]
    simpa [endsBlank] using hc

end LowerCases

/-! ## One key for one directory -/

variable (D) in
/-- Machine names that differ in case and surrounding white space only. -/
def SameMachine (m m' : JsString) : Prop := D.toLocaleLowerCase (trim m) = D.toLocaleLowerCase (trim m')

/-- The path a registered directory names. -/
def pathOf (directory : JsString) : Path := Path.of (trim directory)

variable (D) in
/-- Spellings of one path: white space around it, the kind and the number of separators
    do not count, nor does case where it starts with a drive letter. -/
def SameDirectory (d d' : JsString) : Prop := pathOf d = pathOf d' ∨
  ((pathOf d).namesDrive = true ∧ (pathOf d').namesDrive = true ∧
    D.toLocaleLowerCase (pathOf d).spell = D.toLocaleLowerCase (pathOf d').spell)

instance (d d' : JsString) : Decidable (SameDirectory D d d') := inferInstanceAs (Decidable (_ ∨ _))

/-- The two are written in one case, or both name something below a drive. -/
def CaseKept (d d' : JsString) : Prop :=
  pathOf d = pathOf d' ∨ ((pathOf d).belowDrive = true ∧ (pathOf d').belowDrive = true)

instance (d d' : JsString) : Decidable (CaseKept d d') := inferInstanceAs (Decidable (_ ∨ _))

theorem normalize_eq (d : JsString) : normalizeDirectory D d =
    if (pathOf d).belowDrive then D.toLocaleLowerCase (pathOf d).spell else (pathOf d).spell := by
  rw [normalizeDirectory, stripped_eq, startsWithDrive_spell]; rfl

theorem normalize_same_iff (hf : LowerCases D.toLocaleLowerCase) {d d' : JsString} (h : SameDirectory D d d') :
    normalizeDirectory D d = normalizeDirectory D d' ↔ CaseKept d d' := by
  rw [normalize_eq, normalize_eq]
  constructor
  · intro hk
    by_cases hp : (pathOf d).belowDrive = true <;> by_cases hq : (pathOf d').belowDrive = true
    · exact Or.inr ⟨hp, hq⟩
    · rw [if_pos hp, if_neg hq] at hk
      have hdrive := hf.drive ((startsWithDrive_spell _).trans hp)
      rw [hk, startsWithDrive_spell] at hdrive
      exact absurd hdrive hq
    · rw [if_neg hp, if_pos hq] at hk
      have hdrive := hf.drive ((startsWithDrive_spell _).trans hq)
      rw [← hk, startsWithDrive_spell] at hdrive
      exact absurd hdrive hp
    · rw [if_neg hp, if_neg hq] at hk
      exact Or.inl (Path.spell_inj hk)
  · rintro (he | ⟨hp, hq⟩)
    · rw [he]
    · rw [if_pos hp, if_pos hq]
      rcases h with he | ⟨-, -, hl⟩
      · rw [he]
      · exact hl

theorem ownershipKey_same_iff (hf : LowerCases D.toLocaleLowerCase) {u : UserId} {r r' : RegisterMessage}
    (hm : SameMachine D r.machine r'.machine) (hd : SameDirectory D r.directory r'.directory) :
    ownershipKey D u r = ownershipKey D u r' ↔ CaseKept r.directory r'.directory := by
  rw [← normalize_same_iff hf hd, ownershipKey_eq, ownershipKey_eq, hm]
  constructor
  · intro h
    have h := (joinNul_inj u.noNul u.noNul h).2
    exact List.cons_injective (List.append_cancel_left h)
  · exact fun h => by rw [h]

/-! ## Normalizing twice -/

/-- The last segment of the path ends in white space. -/
def BlankEnd (directory : JsString) : Prop := (pathOf directory).segments.getLast?.any endsBlank = true

theorem head_spell (d : JsString) : (pathOf d).spell.head?.any isSpace = false := head_spell_of (head_trim d)

/-- A path below a drive in lower case. -/
theorem below_lower (hf : LowerCases D.toLocaleLowerCase) {p : Path} (hp : p.belowDrive = true) :
    (hf.lower p).belowDrive = true := by
  rw [← startsWithDrive_spell, ← hf.spell]
  exact hf.drive ((startsWithDrive_spell p).trans hp)

theorem normalize_spell (p : Path) (hp : p.spell.head?.any isSpace = false) (he : endsBlank p.spell = false) :
    normalizeDirectory D p.spell = if p.belowDrive then D.toLocaleLowerCase p.spell else p.spell := by
  rw [normalize_eq, pathOf, trim_eq_self hp he, Path.of_spell]

/-- White space at the end of a key makes the second normalization shorter. -/
theorem normalize_ne_of_blank (hf : LowerCases D.toLocaleLowerCase) {m : JsString} (hm : m.head?.any isSpace = false)
    (he : endsBlank m = true) (hfix : startsWithDrive m = true → D.toLocaleLowerCase m = m ∧ 92 ∉ m) :
    normalizeDirectory D m ≠ m := by
  obtain ⟨w, hw, hblank, hnil⟩ := trim_of_head hm
  have hlen : (trim m).length < m.length := by
    have hpos : 0 < w.length := List.length_pos_of_ne_nil fun h => by rw [hnil.mp h] at he; cases he
    have := congrArg List.length hw
    rw [List.length_append] at this
    omega
  have hle := length_spell_of_le (trim m)
  intro hnorm
  rw [normalize_eq, pathOf] at hnorm
  split at hnorm
  · rename_i hbelow
    have hdrive := hf.drive ((startsWithDrive_spell _).trans hbelow)
    rw [hnorm] at hdrive
    obtain ⟨hlow, hback⟩ := hfix hdrive
    -- What is left after trimming is in lower case as well.
    have htrim : D.toLocaleLowerCase (trim m) = trim m := by
      have h := hf.blanks (trim m) w hblank
      rw [← hw, hlow] at h
      exact List.append_cancel_right (h.symm.trans hw)
    have hcut := hf.cut (s := trim m) fun h => hback (by rw [hw]; exact List.mem_append_left _ h)
    rw [htrim] at hcut
    have hsame : hf.lower (Path.of (trim m)) = Path.of (trim m) := Path.ext rfl hcut.symm
    rw [hf.spell, hsame] at hnorm
    rw [hnorm] at hle
    omega
  · rw [hnorm] at hle
    omega

theorem normalize_idempotent_iff (hf : LowerCases D.toLocaleLowerCase) (d : JsString) :
    normalizeDirectory D (normalizeDirectory D d) = normalizeDirectory D d ↔ ¬ BlankEnd d := by
  have hhead := head_spell d
  rw [BlankEnd, ← Path.endsBlank_spell, normalize_eq d, Bool.not_eq_true]
  by_cases hp : (pathOf d).belowDrive = true
  · have hne : (pathOf d).spell ≠ [] := fun h => by
      have hdrive := (startsWithDrive_spell _).trans hp
      rw [h] at hdrive; cases hdrive
    have hspell := hf.spell (pathOf d)
    have hdrive : startsWithDrive (D.toLocaleLowerCase (pathOf d).spell) = true :=
      hf.drive ((startsWithDrive_spell _).trans hp)
    have hhead' : (D.toLocaleLowerCase (pathOf d).spell).head?.any isSpace = false := by
      obtain ⟨c, r, hc, hcr⟩ := startsWithDrive_eq_true.mp hdrive
      rw [hcr]
      exact isSpace_of_isDriveLetter hc
    rw [if_pos hp, ← hf.ends hne]
    constructor
    · intro h
      refine Bool.not_eq_true _ ▸ fun he => normalize_ne_of_blank hf hhead' he (fun _ => ⟨hf.idempotent _, ?_⟩) h
      rw [hspell]
      exact Path.backslash_not_mem_spell _
    · intro he
      rw [hspell] at hhead' he ⊢
      rw [normalize_spell _ hhead' he, if_pos (below_lower hf hp), ← hspell, hf.idempotent]
  · rw [if_neg hp]
    constructor
    · intro h
      refine Bool.not_eq_true _ ▸ fun he => normalize_ne_of_blank hf hhead he (fun hdrive => ?_) h
      exact absurd ((startsWithDrive_spell _).symm.trans hdrive) hp
    · intro he
      rw [normalize_spell _ hhead he, if_neg hp]

/-! ## One owner for one directory -/

/-- Plugins in one directory have one key, but for the case of a drive's root, and are
    never both controllable. -/
theorem directories_identified (hf : LowerCases D.toLocaleLowerCase) :
    (∀ u r r', SameMachine D r.machine r'.machine → SameDirectory D r.directory r'.directory →
      (ownershipKey D u r = ownershipKey D u r' ↔ CaseKept r.directory r'.directory)) ∧
    (∀ d, normalizeDirectory D (normalizeDirectory D d) = normalizeDirectory D d ↔ ¬ BlankEnd d) ∧
    (∀ es, Along (step D) (fun s e => ¬ LateFrame s e) .init es → ∀ k k' r r', (run D es).records.get k = some r →
      (run D es).records.get k' = some r' → r.userId = r'.userId →
      SameMachine D r.registration.machine r'.registration.machine →
      SameDirectory D r.registration.directory r'.registration.directory →
      CaseKept r.registration.directory r'.registration.directory →
      r.state = .controllable → r'.state = .controllable → k = k') := by
  refine ⟨fun u r r' hm hd => ownershipKey_same_iff hf hm hd, normalize_idempotent_iff hf, ?_⟩
  intro es hes k k' r r' hr hr' hu hm hd hc hs hs'
  refine (ownership_exclusive es hes).1.2.one k k' r r' hr hr' hs hs' ?_
  rw [hu]
  exact (ownershipKey_same_iff hf hm hd).mpr hc

/-! ## On concrete input -/

theorem lowerCases_ascii : LowerCases asciiLower := by
  have hsep : ∀ c : UInt16, isSeparator c = false → isSeparator (if 65 ≤ c ∧ c ≤ 90 then c + 32 else c) = false := by
    intro c hc
    split
    · rename_i h
      simp only [isSeparator, Bool.or_eq_false_iff, beq_eq_false_iff_ne, ne_eq, UInt16.le_iff_toNat_le,
        ← UInt16.toNat_inj, UInt16.toNat_add, UInt16.toNat_ofNat] at h hc ⊢
      omega
    · exact hc
  have hspace : ∀ c : UInt16, isSpace (if 65 ≤ c ∧ c ≤ 90 then c + 32 else c) = isSpace c := by
    intro c
    split
    · rename_i h
      have hc : isSpace c = false := isSpace_of_isDriveLetter (by simp [isDriveLetter, h])
      have hl : isSpace (c + 32) = false := by
        refine isSpace_of_isDriveLetter ?_
        simp only [isDriveLetter, Bool.or_eq_true, Bool.and_eq_true, decide_eq_true_eq, UInt16.le_iff_toNat_le,
          UInt16.toNat_add, UInt16.toNat_ofNat] at h ⊢
        omega
      rw [hc, hl]
    · rfl
  refine ⟨rfl, fun s hs => by simpa [asciiLower] using hs, fun s t => List.map_append, ?_, ?_, ?_, ?_, ?_⟩
  · intro s hs c hc
    obtain ⟨d, hd, rfl⟩ := List.mem_map.mp hc
    exact hsep d (hs d hd)
  · intro s w hw
    rw [asciiLower, List.map_append]
    congr 1
    refine (List.map_congr_left fun c hc => ?_).trans (List.map_id w)
    have hne : ¬(65 ≤ c ∧ c ≤ 90) := fun h => by
      have := isSpace_of_isDriveLetter (c := c) (by simp [isDriveLetter, h])
      rw [hw c hc] at this; cases this
    exact if_neg hne
  · intro s hs he
    obtain ⟨t, c, rfl⟩ := (List.eq_nil_or_concat s).resolve_left hs
    rw [List.concat_eq_append] at he ⊢
    rw [asciiLower, List.map_append]
    simpa [endsBlank, hspace] using he
  · intro c hc
    refine ⟨if 65 ≤ c ∧ c ≤ 90 then c + 32 else c, ?_, rfl⟩
    split
    · rename_i h
      simp only [isDriveLetter, Bool.or_eq_true, Bool.and_eq_true, decide_eq_true_eq, UInt16.le_iff_toNat_le,
        UInt16.toNat_add, UInt16.toNat_ofNat] at h ⊢
      omega
    · exact hc
  · intro s
    unfold asciiLower
    rw [List.map_map]
    refine List.map_congr_left fun c _ => ?_
    simp only [Function.comp]
    split
    · rename_i h
      rw [if_neg]
      simp only [UInt16.le_iff_toNat_le, UInt16.toNat_add, UInt16.toNat_ofNat] at h ⊢
      omega
    · rfl

def inDirectory (instanceId : JsString) (directory : String) : RegisterMessage :=
  { sampleRegistration instanceId with directory := js directory }

theorem spellings_of_one_directory :
    ownershipKey sampleDeps alice (inDirectory instance1 "C:\\Hub\\\\src\\") =
      ownershipKey sampleDeps alice (inDirectory instance1 " c:/hub/SRC") :=
  ((directories_identified (D := sampleDeps) lowerCases_ascii).1 alice _ _ rfl (by decide +kernel)).mpr
    (by decide +kernel)

/-- Two plugins at the root of one drive. -/
def atDriveRoot : List Event :=
  [⟨0, .add (plugin 0) openSocket⟩, ⟨1, .frame (plugin 0) (some (.register (inDirectory instance1 "C:\\")))⟩,
    ⟨2, .add (plugin 1) openSocket⟩, ⟨3, .frame (plugin 1) (some (.register (inDirectory instance2 "c:/")))⟩]

/-- The root of a drive in two cases has two keys and two controllable plugins, and a
    directory with a blank before its last slash is normalized to two texts. -/
theorem drive_root_has_two_owners :
    (SameDirectory sampleDeps (js "C:\\") (js "c:/") ∧
      ownershipKey sampleDeps alice (inDirectory instance1 "C:\\") ≠
        ownershipKey sampleDeps alice (inDirectory instance2 "c:/")) ∧
    (Along (step sampleDeps) (fun s e => ¬ LateFrame s e) .init atDriveRoot ∧
      (run sampleDeps atDriveRoot).records.values.map (fun r => (r.registration.instanceId, r.state)) =
        [(instance1, .controllable), (instance2, .controllable)]) ∧
    normalizeDirectory sampleDeps (normalizeDirectory sampleDeps (js "/hub /")) ≠
      normalizeDirectory sampleDeps (js "/hub /") := by
  decide +kernel

end NotifyHub.Control
