/-
  NotifyHub.Plugin.DisplayLine — is the summary of a permission one clean line?
  (`buildPermissionSummary`, packages/plugin/src/events.ts, and the envelope's
  `truncateCodePoints`.)

  - `display_line_iff`: it is well formed, without control characters and line breaks,
    exactly when what is shown of the name has none of these, what is shown of the patterns
    has no C1 control, and a long text is not cut inside a surrogate pair (`Shown`). It is
    never empty and never too long, and the envelope does not cut it again.
  - `newline_in_name`: the name itself is not sanitized.
-/

import NotifyHub.Lib.Surrogates
import NotifyHub.Plugin.Envelope

namespace NotifyHub.Plugin

open Utf8 (WellFormed isSurrogate wellFormed_nil wellFormed_cons wellFormed_cons_pair unit_of_wellFormed
  wellFormed_take)

/-- The C1 controls, U+0080 to U+009F. -/
def isC1 (c : UInt16) : Bool := 0x80 ≤ c && c ≤ 0x9f

/-- A control character (Unicode's Cc), or a line or paragraph separator. -/
def breaksLine (c : UInt16) : Bool := isControl c || isC1 c || c == 0x2028 || c == 0x2029

structure DisplayLine (s : JsString) : Prop where
  written : s ≠ []
  wellFormed : WellFormed s
  short : s.length ≤ PERMISSION_SUMMARY_MAX_LENGTH
  clean : ∀ c ∈ s, breaksLine c = false

/-- What the patterns add to the name. -/
def patternText (patterns : List JsString) : JsString :=
  let sanitized := (patterns.map Json.str).filterMap sanitizePattern
  if sanitized.length > 0 then js ": " ++ joinComma sanitized else []

/-- How much of a text of this length is shown. -/
def room (length : Nat) : Nat :=
  if length ≤ PERMISSION_SUMMARY_MAX_LENGTH then PERMISSION_SUMMARY_MAX_LENGTH else PERMISSION_SUMMARY_MAX_LENGTH - 1

/-- What is shown of a name and its patterns may be shown. -/
structure Shown (permission : JsString) (patterns : List JsString) : Prop where
  name : ∀ c ∈ permission.take (room (permission.length + (patternText patterns).length)), breaksLine c = false
  rest : ∀ c ∈ (patternText patterns).take
    (room (permission.length + (patternText patterns).length) - permission.length),
    isC1 c = false
  cut : PERMISSION_SUMMARY_MAX_LENGTH < permission.length + (patternText patterns).length →
    ∀ c, (permission ++ patternText patterns)[PERMISSION_SUMMARY_MAX_LENGTH - 2]? = some c → isHighSurrogate c = false

/-! ## Sanitizing -/

theorem not_surrogate {c : UInt16} (h : c.toNat < 0xd800 ∨ 0xdfff < c.toNat) : isSurrogate c = false := by
  rw [isSurrogate, Bool.or_eq_false_iff, Bool.eq_false_iff, Bool.eq_false_iff, ne_eq, ne_eq, Utf8.isHighSurrogate_iff,
    Utf8.isLowSurrogate_iff]
  omega

theorem not_surrogate_of_space {c : UInt16} (h : isSpace c = true) : isSurrogate c = false := by
  refine not_surrogate ?_
  simp only [isSpace, Bool.or_eq_true, Bool.and_eq_true, decide_eq_true_eq, beq_iff_eq, UInt16.le_iff_toNat_le,
    ← UInt16.toNat_inj,
    UInt16.reduceToNat] at h
  omega

theorem not_surrogate_of_control {c : UInt16} (h : isControl c = true) : isSurrogate c = false := by
  refine not_surrogate ?_
  simp only [isControl, Bool.or_eq_true, decide_eq_true_eq, beq_iff_eq, UInt16.lt_iff_toNat_lt, ← UInt16.toNat_inj,
    UInt16.reduceToNat] at h
  omega

/-- What is replaced by spaces is gone, and nothing else is. -/
theorem mem_replaceRuns {p : UInt16 → Bool} {s : JsString} {c : UInt16} (h : c ∈ replaceRuns p s) :
    c = 32 ∨ c ∈ s ∧ p c = false := by
  induction s with
  | nil => cases h
  | cons a s ih =>
    unfold replaceRuns at h
    split at h
    · split at h
      · exact Or.inl (List.mem_singleton.mp h)
      · split at h
        · exact (ih h).imp_right fun h => ⟨List.mem_cons_of_mem _ h.1, h.2⟩
        · rcases List.mem_cons.mp h with h | h
          · exact Or.inl h
          · exact (ih h).imp_right fun h => ⟨List.mem_cons_of_mem _ h.1, h.2⟩
    · rename_i ha
      rcases List.mem_cons.mp h with rfl | h
      · exact Or.inr ⟨List.mem_cons_self, Bool.eq_false_iff.mpr ha⟩
      · exact (ih h).imp_right fun h => ⟨List.mem_cons_of_mem _ h.1, h.2⟩

theorem replaceRuns_keep {p : UInt16 → Bool} {c : UInt16} (hc : p c = false) (s : JsString) :
    replaceRuns p (c :: s) = c :: replaceRuns p s := by
  rw [replaceRuns.eq_def]
  simp only [hc, Bool.false_eq_true, if_false]

theorem wellFormed_space_cons {s : JsString} : WellFormed (32 :: s) ↔ WellFormed s := wellFormed_cons (by decide)

theorem wellFormed_replaceRuns {p : UInt16 → Bool} (hp : ∀ c, p c = true → isSurrogate c = false)
    {s : JsString} (h : WellFormed s) :
    WellFormed (replaceRuns p s) := by
  have hkeep : ∀ {c : UInt16}, isSurrogate c = true → p c = false := by
    intro c hc
    refine Bool.eq_false_iff.mpr fun hpc => ?_
    rw [hp c hpc] at hc
    cases hc
  induction s using codePoints.induct with
  | case1 => exact wellFormed_nil
  | case2 c =>
    rw [replaceRuns]
    split
    · exact wellFormed_space_cons.mpr wellFormed_nil
    · exact h
  | case3 c d s hpair ih =>
    obtain ⟨hhigh, hlow⟩ := Bool.and_eq_true_iff.mp hpair
    have hc := hkeep (show isSurrogate c = true by rw [isSurrogate, hhigh, Bool.true_or])
    have hd := hkeep (show isSurrogate d = true by rw [isSurrogate, hlow, Bool.or_true])
    rw [replaceRuns_keep hc, replaceRuns_keep hd, wellFormed_cons_pair hpair]
    exact ih ((wellFormed_cons_pair hpair).mp h)
  | case4 c d s hpair ih =>
    have hc := unit_of_wellFormed h fun d' t hd => by
      cases hd
      exact Bool.eq_false_iff.mpr hpair
    have hrest := ih ((wellFormed_cons hc).mp h)
    unfold replaceRuns
    split
    · dsimp only
      split
      · exact hrest
      · exact wellFormed_space_cons.mpr hrest
    · exact (wellFormed_cons hc).mpr hrest

theorem wellFormed_trimStart {s : JsString} (h : WellFormed s) : WellFormed (trimStart s) := by
  induction s with
  | nil => exact h
  | cons c s ih =>
    rw [trimStart, List.dropWhile_cons]
    split
    · rename_i hc
      exact ih ((wellFormed_cons (not_surrogate_of_space hc)).mp h)
    · exact h

theorem wellFormed_trimEnd {s : JsString} (h : WellFormed s) : WellFormed (trimEnd s) := by
  rw [← s.reverse_reverse] at h
  unfold trimEnd
  generalize s.reverse = r at h ⊢
  induction r with
  | nil => exact h
  | cons c r ih =>
    rw [List.dropWhile_cons]
    split
    · rename_i hc
      rw [List.reverse_cons] at h
      exact ih (h.of_snoc (not_surrogate_of_space hc))
    · exact h

theorem mem_trim {s : JsString} {c : UInt16} (h : c ∈ trim s) : c ∈ s := by
  rw [trim, trimEnd, List.mem_reverse] at h
  have h := (List.dropWhile_sublist _).subset h
  rw [List.mem_reverse] at h
  exact (List.dropWhile_sublist _).subset h

/-- A sanitized pattern is well formed and has no control but a C1, and no line break. -/
theorem sanitizePattern_spec {pattern s : JsString} (h : sanitizePattern (.str pattern) = some s) :
    (WellFormed pattern → WellFormed s) ∧ ∀ c ∈ s, breaksLine c = isC1 c := by
  simp only [sanitizePattern, Json.str?, Option.bind_eq_bind, Option.bind_some] at h
  split at h
  · cases h
    refine ⟨fun hw => ?_, fun c hc => ?_⟩
    · exact wellFormed_trimEnd (wellFormed_trimStart (wellFormed_replaceRuns (fun c => not_surrogate_of_space)
        (wellFormed_replaceRuns (fun c => not_surrogate_of_control) hw)))
    · rcases mem_replaceRuns (mem_trim hc) with rfl | ⟨hc, hspace⟩
      · decide
      · rcases mem_replaceRuns hc with rfl | ⟨-, hcontrol⟩
        · decide
        · simp only [isSpace, Bool.or_eq_false_iff] at hspace
          simp [breaksLine, hcontrol, hspace]
  · cases h

theorem mem_joinComma {l : List JsString} {c : UInt16} (h : c ∈ joinComma l) : c = 44 ∨ c = 32 ∨ ∃ s ∈ l, c ∈ s := by
  induction l using joinComma.induct with
  | case1 => cases h
  | case2 s => exact Or.inr (Or.inr ⟨s, List.mem_singleton_self s, h⟩)
  | case3 s l hl ih =>
    rw [joinComma] at h
    · rcases List.mem_append.mp h with h | h
      · rcases List.mem_append.mp h with h | h
        · exact Or.inr (Or.inr ⟨s, List.mem_cons_self, h⟩)
        · have hc : c ∈ ([44, 32] : JsString) := h
          simp only [List.mem_cons, List.not_mem_nil, or_false] at hc
          exact hc.imp_right Or.inl
      · exact (ih h).imp_right fun h => h.imp_right fun ⟨t, ht, hc⟩ => ⟨t, List.mem_cons_of_mem _ ht, hc⟩
    · exact hl

theorem wellFormed_joinComma {l : List JsString} (h : ∀ s ∈ l, WellFormed s) : WellFormed (joinComma l) := by
  induction l using joinComma.induct with
  | case1 => exact wellFormed_nil
  | case2 s => exact h s (List.mem_singleton_self s)
  | case3 s l hl ih =>
    rw [joinComma]
    · exact ((h s List.mem_cons_self).append (by decide)).append (ih fun t ht => h t (List.mem_cons_of_mem _ ht))
    · exact hl

theorem patternText_spec {patterns : List JsString} :
    ((∀ p ∈ patterns, WellFormed p) → WellFormed (patternText patterns)) ∧ ∀ c ∈ patternText patterns,
    breaksLine c = isC1 c := by
  have hmem : ∀ s ∈ (patterns.map Json.str).filterMap sanitizePattern, ∃ p ∈ patterns,
    sanitizePattern (.str p) = some s := by
    intro s hs
    obtain ⟨v, hv, hp⟩ := List.mem_filterMap.mp hs
    obtain ⟨p, hpm, rfl⟩ := List.mem_map.mp hv
    exact ⟨p, hpm, hp⟩
  unfold patternText
  dsimp only
  split
  · refine ⟨fun hw => ?_, fun c hc => ?_⟩
    · refine WellFormed.append (by decide) (wellFormed_joinComma fun s hs => ?_)
      obtain ⟨p, hp, hs⟩ := hmem s hs
      exact (sanitizePattern_spec hs).1 (hw p hp)
    · rcases List.mem_append.mp hc with hc | hc
      · have hc : c ∈ ([58, 32] : JsString) := hc
        simp only [List.mem_cons, List.not_mem_nil, or_false] at hc
        rcases hc with rfl | rfl <;> decide
      · rcases mem_joinComma hc with rfl | rfl | ⟨s, hs, hc⟩
        · decide
        · decide
        · obtain ⟨p, -, hs⟩ := hmem s hs
          exact (sanitizePattern_spec hs).2 c hc
  · exact ⟨fun _ => wellFormed_nil, nofun⟩

/-! ## The summary -/

/-- The text that is cut. -/
theorem buildPermissionSummary_eq (permission : JsString) (patterns : List JsString) :
    buildPermissionSummary permission (some (.arr (patterns.map .str))) =
      if (permission ++ patternText patterns).length ≤ PERMISSION_SUMMARY_MAX_LENGTH then
        permission ++ patternText patterns
      else (permission ++ patternText patterns).take (PERMISSION_SUMMARY_MAX_LENGTH - 1) ++ [ellipsis] := by
  have htext : (if ((patterns.map Json.str).filterMap sanitizePattern).length > 0 then
      permission ++ js ": " ++ joinComma ((patterns.map Json.str).filterMap sanitizePattern) else permission) =
      permission ++ patternText patterns := by
    unfold patternText
    dsimp only
    split
    · rw [List.append_assoc]
    · rw [List.append_nil]
  unfold buildPermissionSummary
  dsimp only
  rw [htext]

/-- What is shown of the text is clean when what is shown of the name and of the patterns is. -/
theorem clean_take (permission : JsString) (patterns : List JsString) (n : Nat) :
    (∀ c ∈ (permission ++ patternText patterns).take n, breaksLine c = false) ↔
      (∀ c ∈ permission.take n, breaksLine c = false) ∧ ∀ c ∈ (patternText patterns).take (n - permission.length),
      isC1 c = false := by
  have hrest : ∀ c ∈ (patternText patterns).take (n - permission.length), breaksLine c = isC1 c :=
    fun c hc => patternText_spec.2 c (List.mem_of_mem_take hc)
  rw [List.take_append, List.forall_mem_append]
  exact and_congr_right fun _ => forall₂_congr fun c hc => by rw [hrest c hc]

/-- Two units before the end of the room: the last that is shown of a long text. -/
theorem last_shown {s : JsString} (h : PERMISSION_SUMMARY_MAX_LENGTH < s.length) :
    (s.take (PERMISSION_SUMMARY_MAX_LENGTH - 1)).getLast? = s[PERMISSION_SUMMARY_MAX_LENGTH - 2]? := by
  unfold PERMISSION_SUMMARY_MAX_LENGTH at h ⊢
  rw [List.getLast?_eq_getElem?, List.length_take, List.getElem?_take, if_pos (by omega)]
  congr 1
  omega

theorem summary_short (permission : JsString) (patterns : List JsString) :
    (buildPermissionSummary permission (some (.arr (patterns.map .str)))).length ≤ PERMISSION_SUMMARY_MAX_LENGTH := by
  rw [buildPermissionSummary_eq]
  split
  · assumption
  · rw [List.length_append, List.length_take, List.length_singleton]
    unfold PERMISSION_SUMMARY_MAX_LENGTH
    omega

/-- The envelope has more room than the summary needs. -/
theorem truncate_summary {summary : JsString} (h : summary.length ≤ PERMISSION_SUMMARY_MAX_LENGTH) :
    Envelope.truncateCodePoints summary MAX_PERMISSION_SUMMARY_CODE_POINTS = summary := by
  refine if_pos (Nat.le_trans (codePoints_length_le summary) (Nat.le_trans h ?_))
  decide

theorem summary_iff {permission : JsString} {patterns : List JsString} (hname : permission ≠ [])
    (hw : WellFormed permission)
    (hws : ∀ p ∈ patterns, WellFormed p) :
    DisplayLine (buildPermissionSummary permission (some (.arr (patterns.map .str)))) ↔ Shown permission patterns := by
  have htext : WellFormed (permission ++ patternText patterns) := hw.append (patternText_spec.1 hws)
  have hlen : (permission ++ patternText patterns).length = permission.length + (patternText patterns).length :=
    List.length_append
  have hshort := summary_short permission patterns
  have hne := summary_ne hname (some (.arr (patterns.map .str)))
  rw [buildPermissionSummary_eq] at hshort hne ⊢
  by_cases hfits : (permission ++ patternText patterns).length ≤ PERMISSION_SUMMARY_MAX_LENGTH
  · rw [if_pos hfits] at hshort hne ⊢
    have hroom : room (permission.length + (patternText patterns).length) = PERMISSION_SUMMARY_MAX_LENGTH :=
      if_pos (hlen ▸ hfits)
    have hclean := clean_take permission patterns PERMISSION_SUMMARY_MAX_LENGTH
    rw [List.take_of_length_le hfits] at hclean
    constructor
    · intro h
      obtain ⟨hn, hr⟩ := hclean.mp h.clean
      exact ⟨hroom.symm ▸ hn, hroom.symm ▸ hr, fun hlong => absurd hlong (by omega)⟩
    · intro h
      exact ⟨hne, htext, hshort, hclean.mpr ⟨hroom ▸ h.name, hroom ▸ h.rest⟩⟩
  · rw [if_neg hfits] at hshort hne ⊢
    have hlong : PERMISSION_SUMMARY_MAX_LENGTH < (permission ++ patternText patterns).length := Nat.lt_of_not_le hfits
    have hroom : room (permission.length + (patternText patterns).length) = PERMISSION_SUMMARY_MAX_LENGTH - 1 :=
      if_neg (hlen ▸ hfits)
    have hclean := clean_take permission patterns (PERMISSION_SUMMARY_MAX_LENGTH - 1)
    have hcut := wellFormed_take htext (PERMISSION_SUMMARY_MAX_LENGTH - 1)
    rw [last_shown hlong] at hcut
    constructor
    · intro h
      obtain ⟨hn, hr⟩ := hclean.mp fun c hc => h.clean c (List.mem_append_left _ hc)
      exact ⟨hroom.symm ▸ hn, hroom.symm ▸ hr, fun _ => hcut.mp (h.wellFormed.of_snoc (by decide))⟩
    · intro h
      refine ⟨hne, (hcut.mpr (h.cut (hlen ▸ hlong))).append (by decide), hshort, fun c hc => ?_⟩
      rcases List.mem_append.mp hc with hc | hc
      · exact hclean.mpr ⟨hroom ▸ h.name, hroom ▸ h.rest⟩ c hc
      · rw [List.mem_singleton.mp hc]
        decide

/-- The summary of the normalized event, and the one that the envelope emits. -/
theorem display_line_iff (P : EnvelopePlatform) (o : EnvelopeFactoryOptions) (stamp : Stamp P)
    (session : Contracts.EventSession)
    (properties : List (JsString × Json)) (sessionID requestID permission summary : JsString) (patterns : List JsString)
    (hn : normalizePermissionAsked properties = some (.permissionAsked sessionID requestID permission summary))
    (hp : (member properties "patterns").or (member properties "pattern") = some (.arr (patterns.map .str)))
    (hw : WellFormed permission) (hws : ∀ p ∈ patterns, WellFormed p) :
    (DisplayLine summary ∧ ∀ e, actionRequired P o stamp session requestID (.permission permission summary) = some e →
      ∃ emitted, e.payload = .actionRequired requestID (.permission permission emitted) ∧ DisplayLine emitted) ↔
    Shown permission patterns := by
  obtain ⟨hname, hsummary⟩ : permission ≠ [] ∧ summary = buildPermissionSummary permission
    (some (.arr (patterns.map .str))) := by
    have hsound := permissionAsked_sound hn
    simp only [normalizePermissionAsked, Option.bind_eq_bind, Option.bind_eq_some_iff] at hn
    obtain ⟨_, -, _, -, name, -, he⟩ := hn
    rw [hp] at he
    cases he
    exact ⟨hsound.2.2.1, rfl⟩
  rw [← summary_iff hname hw hws, ← hsummary]
  refine ⟨And.left, fun h => ⟨h, fun e he => ⟨summary, ?_, h⟩⟩⟩
  have hne : ¬ summary.length = 0 := fun h0 => h.written (List.length_eq_zero_iff.mp h0)
  simp only [actionRequired, hne, if_false, truncate_summary h.short] at he
  unfold finalize at he
  split at he
  · cases he
    rfl
  · cases he

/-! ## Two summaries -/

namespace DisplayLine

def platform : EnvelopePlatform := ⟨fun _ => false, fun _ => true⟩

def stamp : Stamp platform := ⟨js "00000000-0000-4000-8000-000000000000", js "2026-01-01T00:00:00Z", by decide, rfl⟩

def askedFor (permission : JsString) (patterns : List JsString) : List (JsString × Json) :=
  [(js "sessionID", .str (js "ses_1")), (js "id", .str (js "per_1")), (js "permission", .str permission),
    (js "patterns", .arr (patterns.map .str))]

end DisplayLine

open DisplayLine in
/-- The line break in the pattern is replaced. -/
theorem plain_summary :
    DisplayLine (js "bash: rm a b") ∧ ∀ e, actionRequired platform ⟨⟨js "laptop", js "app", js "/work"⟩, true⟩ stamp
      ⟨js "ses_1", js "s"⟩ (js "per_1") (.permission (js "bash") (js "bash: rm a b")) = some e →
      ∃ emitted, e.payload = .actionRequired (js "per_1") (.permission (js "bash") emitted) ∧ DisplayLine emitted := by
  refine (display_line_iff _ _ _ _ (askedFor (js "bash") [js "rm a\nb"]) (js "ses_1") _ _ _
    [js "rm a\nb"] (by decide +kernel) rfl
    (by decide +kernel) ?_).mpr ⟨?_, ?_, ?_⟩
  · exact List.forall_mem_singleton.mpr (by decide +kernel)
  · exact fun c hc => Bool.eq_false_iff.mpr (List.any_eq_false.mp (by decide +kernel) c hc)
  · exact fun c hc => Bool.eq_false_iff.mpr (List.any_eq_false.mp (by decide +kernel) c hc)
  · exact fun hlong => absurd hlong (by decide +kernel)

open DisplayLine in
/-- The name is shown as it is. -/
theorem newline_in_name :
    normalizePermissionAsked (askedFor (js "a\nb") []) =
      some (.permissionAsked (js "ses_1") (js "per_1") (js "a\nb") (js "a\nb")) ∧
      ¬ DisplayLine (js "a\nb") := by
  refine ⟨by decide +kernel, fun h => ?_⟩
  exact absurd (h.clean 10 (by decide +kernel)) (by decide +kernel)

end NotifyHub.Plugin
