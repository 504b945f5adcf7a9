/-
  NotifyHub.Lib.JsonParse — `JSON.parse` of a text: what it makes of one, or nothing where
  it throws. A member that is given twice keeps its place and has the later value; the order
  that a script gives members whose names are numbers is not modelled.

  `parse_stringify`: what `stringify` writes is read back, where the names of each object
  differ and the numbers are integers.
-/

import Mathlib.Data.List.TakeWhile
import Mathlib.Data.Nat.Digits.Lemmas
import NotifyHub.Lib.Stringify

namespace NotifyHub.Json

/-! ## Reading -/

/-- The white space between tokens. -/
def isBlank (c : UInt16) : Bool := c == 32 || c == 9 || c == 10 || c == 13

def skipBlanks (s : JsString) : JsString := s.dropWhile isBlank

def hexValue (c : UInt16) : Option Nat :=
  if 48 ≤ c ∧ c ≤ 57 then some (c.toNat - 48)
  else if 97 ≤ c ∧ c ≤ 102 then some (c.toNat - 87)
  else if 65 ≤ c ∧ c ≤ 70 then some (c.toNat - 55)
  else none

/-- The code unit of four hexadecimal digits. -/
def unitOfHex (a b c d : UInt16) : Option UInt16 := do
  let a ← hexValue a
  let b ← hexValue b
  let c ← hexValue c
  let d ← hexValue d
  some (UInt16.ofNat (((a * 16 + b) * 16 + c) * 16 + d))

/-- The code unit of an escape of one letter. -/
def unitOfLetter (c : UInt16) : Option UInt16 :=
  if c = 34 ∨ c = 92 ∨ c = 47 then some c
  else if c = 98 then some 8
  else if c = 102 then some 12
  else if c = 110 then some 10
  else if c = 114 then some 13
  else if c = 116 then some 9
  else none

/-- A string after its opening quote, and what follows it. -/
def readString : JsString → Option (JsString × JsString)
  | [] => none
  | c :: s =>
    if c = 34 then some ([], s)
    else if c = 92 then
      match s with
      | [] => none
      | e :: s =>
        if e = 117 then
          match s with
          | a :: b :: c :: d :: s => do
            let unit ← unitOfHex a b c d
            let (text, rest) ← readString s
            some (unit :: text, rest)
          | _ => none
        else do
          let unit ← unitOfLetter e
          let (text, rest) ← readString s
          some (unit :: text, rest)
    else if c < 32 then none
    else do
      let (text, rest) ← readString s
      some (c :: text, rest)

def digitsValue (s : JsString) : Nat := s.foldl (fun n c => n * 10 + (c.toNat - 48)) 0

/-- `mantissa · 10 ^ -places`, without zeros at its end. -/
def decimals : Nat → Int → Json
  | 0, mantissa => .num mantissa 0
  | places + 1, mantissa => if mantissa % 10 = 0 then decimals places (mantissa / 10) else .num mantissa (-(places + 1))

def numberOf (mantissa exponent : Int) : Json :=
  if 0 ≤ exponent then .num (mantissa * 10 ^ exponent.toNat) 0 else decimals (-exponent).toNat mantissa

/-- The fraction of a number: its digits, and what follows. -/
def readFraction (s : JsString) : Option (JsString × JsString) :=
  if s.head? = some 46 then
    let digits := s.tail.takeWhile isDigit
    if digits = [] then none else some (digits, s.tail.dropWhile isDigit)
  else some ([], s)

/-- The exponent of a number, and what follows. -/
def readExponent (s : JsString) : Option (Int × JsString) :=
  if s.head? = some 101 ∨ s.head? = some 69 then
    let signed := s.tail.head? = some 43 ∨ s.tail.head? = some 45
    let rest := if signed then s.tail.tail else s.tail
    let digits := rest.takeWhile isDigit
    if digits = [] then none
    else some (if s.tail.head? = some 45 then -(digitsValue digits : Int)
      else digitsValue digits, rest.dropWhile isDigit)
  else some (0, s)

/-- A number without its sign: mantissa, exponent, and what follows. -/
def readMagnitude (s : JsString) : Option (Nat × Int × JsString) :=
  let whole := s.takeWhile isDigit
  -- no zero may stand before other digits
  if whole = [] ∨ whole.head? = some 48 ∧ 1 < whole.length then none
  else do
    let (fraction, s) ← readFraction (s.dropWhile isDigit)
    let (exponent, s) ← readExponent s
    some (digitsValue (whole ++ fraction), exponent - fraction.length, s)

def readNumber (s : JsString) : Option (Json × JsString) :=
  if s.head? = some 45 then (readMagnitude s.tail).map fun (m, e, s) => (numberOf (-m) e, s)
  else (readMagnitude s).map fun (m, e, s) => (numberOf m e, s)

/-- A word of the grammar, and what follows it. -/
def readWord (word : String) (s : JsString) : Option JsString :=
  if startsWith s (js word) then some (s.drop (js word).length) else none

/-- Gives a member its value, in its place if it has one. -/
def putMember (members : List (JsString × Json)) (name : JsString) (value : Json) : List (JsString × Json) :=
  if members.any (·.1 = name) then members.map fun m => if m.1 = name then (name, value) else m
  else members ++ [(name, value)]

mutual

/-- A value, and what follows it. -/
def readValue : Nat → JsString → Option (Json × JsString)
  | 0, _ => none
  | n + 1, s =>
    match skipBlanks s with
    | [] => none
    | c :: s =>
      if c = 34 then do
        let (text, s) ← readString s
        some (.str text, s)
      else if c = 91 then
        if (skipBlanks s).head? = some 93 then some (.arr [], (skipBlanks s).tail) else readItems n s []
      else if c = 123 then
        if (skipBlanks s).head? = some 125 then some (.obj [], (skipBlanks s).tail) else readMembers n s []
      else if c = 110 then (readWord "null" (c :: s)).map (.null, ·)
      else if c = 116 then (readWord "true" (c :: s)).map (.bool true, ·)
      else if c = 102 then (readWord "false" (c :: s)).map (.bool false, ·)
      else readNumber (c :: s)

/-- The items of an array up to its end, after those that were read. -/
def readItems : Nat → JsString → List Json → Option (Json × JsString)
  | 0, _, _ => none
  | n + 1, s, before => do
    let (v, s) ← readValue n s
    match skipBlanks s with
    | c :: s =>
      if c = 44 then readItems n s (before ++ [v])
      else if c = 93 then some (.arr (before ++ [v]), s) else none
    | [] => none

/-- The members of an object up to its end, after those that were read. -/
def readMembers : Nat → JsString → List (JsString × Json) → Option (Json × JsString)
  | 0, _, _ => none
  | n + 1, s, before =>
    match skipBlanks s with
    | [] => none
    | q :: s =>
      if q ≠ 34 then none
      else do
        let (name, s) ← readString s
        match skipBlanks s with
        | [] => none
        | colon :: s =>
          if colon ≠ 58 then none
          else do
            let (v, s) ← readValue n s
            match skipBlanks s with
            | c :: s =>
              if c = 44 then readMembers n s (putMember before name v)
              else if c = 125 then some (.obj (putMember before name v), s) else none
            | [] => none

end

/-- `JSON.parse(s)` -/
def parse (s : JsString) : Option Json := do
  let (v, rest) ← readValue (s.length + 1) s
  if skipBlanks rest = [] then some v else none

/-! ## Strings, read back -/

theorem hexValue_hexDigit {n : Nat} (h : n < 16) : hexValue (hexDigit n) = some n := by
  have hall : ∀ n : Fin 16, hexValue (hexDigit n) = some n.val := by decide +kernel
  exact hall ⟨n, h⟩

theorem unitOfHex_hexDigit (c : UInt16) : unitOfHex (hexDigit (c.toNat / 4096)) (hexDigit (c.toNat / 256 % 16))
    (hexDigit (c.toNat / 16 % 16)) (hexDigit (c.toNat % 16)) = some c := by
  have hc := c.toNat_lt
  have hvalue : ((c.toNat / 4096 * 16 + c.toNat / 256 % 16) * 16 + c.toNat / 16 % 16) * 16 + c.toNat % 16 =
    c.toNat := by omega
  rw [unitOfHex, hexValue_hexDigit (by omega), hexValue_hexDigit (by omega), hexValue_hexDigit (by omega),
    hexValue_hexDigit (by omega)]
  simp only [Option.bind_eq_bind, Option.bind_some, hvalue, UInt16.ofNat_toNat]

/-- A unit that is written as it is. -/
theorem readString_unit {c : UInt16} (hquote : c ≠ 34) (hslash : c ≠ 92) (hcontrol : ¬ c < 32) (rest : JsString) :
    readString (c :: rest) = (readString rest).map fun r => (c :: r.1, r.2) := by
  rw [readString.eq_def]
  simp only [hquote, hslash, hcontrol, if_false]
  cases readString rest <;> rfl

theorem readString_letter {c u : UInt16} (hu : c ≠ 117) (hc : unitOfLetter c = some u) (rest : JsString) :
    readString (92 :: c :: rest) = (readString rest).map fun r => (u :: r.1, r.2) := by
  rw [readString.eq_def]
  simp only [if_pos, if_neg (show (92 : UInt16) ≠ 34 by decide), hu, if_false, hc]
  cases readString rest <;> rfl

theorem readString_unicode (c : UInt16) (rest : JsString) :
    readString (unicodeEscape c ++ rest) = (readString rest).map fun r => (c :: r.1, r.2) := by
  change readString (92 :: 117 :: _ :: _ :: _ :: _ :: rest) = _
  rw [readString.eq_def]
  simp only [if_pos, if_neg (show (92 : UInt16) ≠ 34 by decide), unitOfHex_hexDigit]
  cases readString rest <;> rfl

/-- A code point that was written is read back. -/
theorem readString_escape {s p : JsString} (hp : p ∈ codePoints s) (rest : JsString) :
    readString (escape p ++ rest) = (readString rest).map fun r => (p ++ r.1, r.2) := by
  rcases Utf8.mem_codePoints hp with ⟨c, rfl⟩ | ⟨c, d, rfl, hpair⟩
  · unfold escape
    split
    -- the seven letters
    any_goals
      rename_i heq
      obtain rfl := List.singleton_injective heq
      exact readString_letter (by decide) (by decide) rest
    · rename_i c' _ _ _ _ _ hquote hslash heq
      obtain rfl : c = c' := List.singleton_injective heq
      split
      · exact readString_unicode c rest
      · rename_i hplain
        simp only [Bool.or_eq_true, decide_eq_true_eq, not_or] at hplain
        exact readString_unit hquote hslash hplain.1.1 rest
    · rename_i hunit
      exact absurd rfl (hunit c)
  · rw [Bool.and_eq_true] at hpair
    have hhigh := Utf8.isHighSurrogate_iff.mp hpair.1
    have hlow := Utf8.isLowSurrogate_iff.mp hpair.2
    have large : ∀ u : UInt16, 0xd800 ≤ u.toNat → u ≠ 34 ∧ u ≠ 92 ∧ ¬ u < 32 := by
      intro u hu
      refine ⟨fun h => ?_, fun h => ?_, fun h => ?_⟩
      · rw [h] at hu
        exact absurd hu (by decide)
      · rw [h] at hu
        exact absurd hu (by decide)
      · have hlt : u.toNat < 32 := UInt16.lt_iff_toNat_lt.mp h
        omega
    obtain ⟨hc1, hc2, hc3⟩ := large c hhigh.1
    obtain ⟨hd1, hd2, hd3⟩ := large d (by omega)
    rw [show escape [c, d] = [c, d] by simp [escape]]
    show readString (c :: d :: rest) = _
    rw [readString_unit hc1 hc2 hc3, readString_unit hd1 hd2 hd3]
    cases readString rest <;> rfl

/-- A text that was written is read back. -/
theorem readString_quoted (s rest : JsString) : readString ((codePoints s).flatMap escape ++ 34 :: rest) =
    some (s, rest) := by
  have hall : ∀ l : List JsString, (∀ p ∈ l, p ∈ codePoints s) →
    readString (l.flatMap escape ++ 34 :: rest) = some (l.flatten, rest) := by
    intro l hl
    induction l with
    | nil => rw [List.flatMap_nil, List.nil_append, readString.eq_def]; simp
    | cons p l ih =>
      rw [List.flatMap_cons, List.append_assoc, readString_escape (hl p List.mem_cons_self),
        ih fun q hq => hl q (List.mem_cons_of_mem _ hq)]
      rfl
  rw [hall _ fun _ h => h, codePoints_flatten]

/-! ## Numbers, read back -/

/-- No number goes on here. -/
def Ends (rest : JsString) : Prop := ∀ c, rest.head? = some c → isDigit c = false ∧ c ≠ 46 ∧ c ≠ 101 ∧ c ≠ 69

theorem takeWhile_digits {digits rest : JsString} (hdigits : ∀ c ∈ digits, isDigit c = true)
    (hrest : ∀ c, rest.head? = some c → isDigit c = false) :
    (digits ++ rest).takeWhile isDigit = digits ∧ (digits ++ rest).dropWhile isDigit = rest := by
  have hnone : rest.takeWhile isDigit = [] ∧ rest.dropWhile isDigit = rest := by
    cases rest with
    | nil => exact ⟨rfl, rfl⟩
    | cons c r => simp [hrest c rfl]
  rw [List.takeWhile_append_of_pos hdigits, List.dropWhile_append_of_pos hdigits, hnone.1, hnone.2, List.append_nil]
  exact ⟨rfl, rfl⟩

theorem isDigit_decimal (n : Nat) : ∀ c ∈ decimal n, isDigit c = true := by
  intro c hc
  rw [decimal_eq] at hc
  obtain ⟨d, hd, rfl⟩ := List.mem_map.mp hc
  exact isDigit_digit (decimalDigits_lt n d hd)

theorem digitsValue_decimal (n : Nat) : digitsValue (decimal n) = n := by
  have h := numeral_decimal n
  unfold numeral? at h
  split at h
  · exact Option.some.inj h
  · cases h

theorem digitsValue_zeros (s : JsString) (k : Nat) :
    digitsValue (s ++ List.replicate k 48) = digitsValue s * 10 ^ k := by
  induction k with
  | zero => simp
  | succ k ih =>
    rw [List.replicate_succ', ← List.append_assoc, digitsValue, List.foldl_append]
    change digitsValue (s ++ List.replicate k 48) * 10 + 0 = _
    rw [ih, Nat.pow_succ, Nat.add_zero, Nat.mul_assoc]

/-- No number but zero begins with a zero. -/
theorem head_decimal {n : Nat} (h : n ≠ 0) : ∃ c s, decimal n = c :: s ∧ c ≠ 48 := by
  have hne : Nat.digits 10 n ≠ [] := Nat.digits_ne_nil_iff_ne_zero.mpr h
  have hlast : (Nat.digits 10 n).getLast hne ≠ 0 := Nat.getLast_digit_ne_zero 10 h
  have hlt : (Nat.digits 10 n).getLast hne < 10 := Nat.digits_lt_base (by decide) (List.getLast_mem hne)
  refine ⟨digit ((Nat.digits 10 n).getLast hne), ((Nat.digits 10 n).dropLast.reverse).map digit, ?_, fun hzero => ?_⟩
  · rw [decimal, if_neg h]
    conv_lhs => rw [← List.dropLast_append_getLast hne]
    rw [List.reverse_append, List.map_append]
    rfl
  · have hunit := congrArg UInt16.toNat hzero
    rw [digit_toNat hlt] at hunit
    change 48 + _ = 48 at hunit
    omega

/-- A number is its shortest digits, and zeros. -/
theorem decimal_shortest (n : Nat) : ∃ k, decimal n = shortest n ++ List.replicate k 48 := by
  refine ⟨((decimal n).reverse.takeWhile (· == 48)).length, ?_⟩
  have hzeros : ((decimal n).reverse.takeWhile (· == 48)).reverse =
      List.replicate ((decimal n).reverse.takeWhile (· == 48)).length 48 := by
    rw [List.eq_replicate_iff]
    refine ⟨List.length_reverse, fun c hc => ?_⟩
    exact beq_iff_eq.mp (List.mem_takeWhile_imp (p := (· == 48)) (List.mem_reverse.mp hc))
  rw [← hzeros, shortest, ← List.reverse_append, List.takeWhile_append_dropWhile, List.reverse_reverse]

theorem head_shortest {n : Nat} (h : n ≠ 0) : ∃ c s, shortest n = c :: s ∧ c ≠ 48 := by
  obtain ⟨c, s, hn, hc⟩ := head_decimal h
  obtain ⟨k, hk⟩ := decimal_shortest n
  cases hs : shortest n with
  | nil =>
    rw [hs, List.nil_append, hn] at hk
    have hmem : c ∈ List.replicate k (48 : UInt16) := hk ▸ List.mem_cons_self
    exact absurd (List.eq_of_mem_replicate hmem) hc
  | cons d t =>
    rw [hs, hn, List.cons_append] at hk
    exact ⟨d, t, rfl, (List.cons.inj hk).1 ▸ hc⟩

theorem readFraction_none {s : JsString} (h : s.head? ≠ some 46) : readFraction s = some ([], s) := if_neg h

theorem readFraction_digits {digits rest : JsString} (hne : digits ≠ []) (hdigits : ∀ c ∈ digits, isDigit c = true)
    (hrest : ∀ c, rest.head? = some c → isDigit c = false) :
    readFraction (46 :: (digits ++ rest)) = some (digits, rest) := by
  obtain ⟨htake, hdrop⟩ := takeWhile_digits hdigits hrest
  simp only [readFraction, List.head?_cons, if_true, List.tail_cons, htake, hdrop, if_neg hne]

theorem readExponent_none {s : JsString} (h : Ends s) : readExponent s = some (0, s) := by
  refine if_neg ?_
  rintro (hc | hc)
  · exact (h _ hc).2.2.1 rfl
  · exact (h _ hc).2.2.2 rfl

theorem readExponent_digits (n : Nat) {rest : JsString} (hrest : ∀ c, rest.head? = some c → isDigit c = false) :
    readExponent (101 :: 43 :: (decimal n ++ rest)) = some ((n : Int), rest) := by
  obtain ⟨htake, hdrop⟩ := takeWhile_digits (isDigit_decimal n) hrest
  have hne : decimal n ≠ [] := by
    rw [decimal_eq]
    simpa using decimalDigits_ne_nil n
  simp only [readExponent, List.tail_cons, List.head?_cons, true_or, if_true, htake, hdrop,
    if_neg hne, digitsValue_decimal]
  rfl

/-- Digits without a zero in front, then what follows them. -/
theorem readMagnitude_digits (whole : JsString) {fraction s t rest : JsString} {exponent : Int} (hne : whole ≠ [])
    (hwhole : ∀ c ∈ whole, isDigit c = true) (hzero : whole.head? = some 48 → whole.length ≤ 1)
    (hs : ∀ c, s.head? = some c → isDigit c = false) (hfraction : readFraction s = some (fraction, t))
    (hexponent : readExponent t = some (exponent, rest)) :
    readMagnitude (whole ++ s) = some (digitsValue (whole ++ fraction), exponent - fraction.length, rest) := by
  obtain ⟨htake, hdrop⟩ := takeWhile_digits hwhole hs
  have hfits : ¬ (whole = [] ∨ whole.head? = some 48 ∧ 1 < whole.length) := by
    rintro (h | ⟨h, hlen⟩)
    · exact hne h
    · have := hzero h
      omega
  rw [readMagnitude, htake, hdrop, if_neg hfits, hfraction]
  simp only [Option.bind_eq_bind, Option.bind_some, hexponent]

/-- The text of a positive integer, without a sign: it begins with a digit, and its number is read back. -/
theorem readMagnitude_text {m : Int} (hm : m ≠ 0) : ∃ t, numberText m 0 = (if m < 0 then 45 :: t else t) ∧
    (∃ c, t.head? = some c ∧ isDigit c = true) ∧
    ∀ rest, Ends rest → ∃ (k : Nat) (e : Int), readMagnitude (t ++ rest) = some (k, e, rest) ∧
      0 ≤ e ∧ k * 10 ^ e.toNat = m.natAbs := by
  have hn : m.natAbs ≠ 0 := Int.natAbs_ne_zero.mpr hm
  obtain ⟨zeros, hzeros⟩ := decimal_shortest m.natAbs
  obtain ⟨c, s, hs, hc⟩ := head_shortest hn
  have hshort : ∀ d ∈ shortest m.natAbs, isDigit d = true := fun d hd =>
    isDigit_decimal m.natAbs d (hzeros ▸ List.mem_append_left _ hd)
  have hdigit : isDigit c = true := hshort c (hs ▸ List.mem_cons_self)
  have hlength : (decimal m.natAbs).length = (shortest m.natAbs).length + zeros := by
    rw [hzeros, List.length_append, List.length_replicate]
  by_cases hL : (decimal m.natAbs).length ≤ 21
  · refine ⟨decimal m.natAbs, ?_, ⟨c, by rw [hzeros, hs]; rfl, hdigit⟩,
      fun rest hrest => ⟨m.natAbs, 0, ?_, Int.le_refl 0, by simp⟩⟩
    · have hfits : ((shortest m.natAbs).length : Int) ≤ ((decimal m.natAbs).length : Int) + 0 ∧
        ((decimal m.natAbs).length : Int) + 0 ≤ 21 := by
        omega
      have hpad : (((decimal m.natAbs).length : Int) + 0).toNat - (shortest m.natAbs).length = zeros := by omega
      simp only [numberText, if_pos hfits, hpad, ← hzeros, if_neg hm]
    · have hread := readMagnitude_digits (decimal m.natAbs) (s := rest) (by rw [hzeros, hs]; simp)
        (isDigit_decimal m.natAbs) (by rw [hzeros, hs]; intro h; exact absurd (Option.some.inj h) hc)
        (fun c hc => (hrest c hc).1) (readFraction_none fun h => (hrest _ h).2.1 rfl) (readExponent_none hrest)
      rwa [List.append_nil, digitsValue_decimal] at hread
  · have hvalue : digitsValue (shortest m.natAbs) * 10 ^ zeros = m.natAbs := by
      rw [← digitsValue_zeros, ← hzeros, digitsValue_decimal]
    have hfits : ¬ (((shortest m.natAbs).length : Int) ≤ ((decimal m.natAbs).length : Int) + 0 ∧
        ((decimal m.natAbs).length : Int) + 0 ≤ 21) := by omega
    have hpoint : ¬ (0 < ((decimal m.natAbs).length : Int) + 0 ∧ ((decimal m.natAbs).length : Int) + 0 ≤ 21) := by omega
    have hsmall : ¬ (-6 < ((decimal m.natAbs).length : Int) + 0 ∧ ((decimal m.natAbs).length : Int) + 0 ≤ 0) := by omega
    have hscale : 1 ≤ ((decimal m.natAbs).length : Int) + 0 := by omega
    have hpower : (((decimal m.natAbs).length : Int) + 0 - 1).natAbs = (decimal m.natAbs).length - 1 := by omega
    have hone : ∀ d ∈ [c], isDigit d = true := by simpa using hdigit
    have hletter : ∀ (x : UInt16) (r : JsString), isDigit x = false → ∀ d, (x :: r).head? = some d →
      isDigit d = false := by
      intro x r hx d hd
      cases hd
      exact hx
    cases hrest : s with
    | nil =>
      have hlen : (shortest m.natAbs).length = 1 := by rw [hs, hrest]; rfl
      refine ⟨c :: 101 :: 43 :: decimal ((decimal m.natAbs).length - 1), ?_, ⟨c, rfl, hdigit⟩, fun rest hends =>
        ⟨digitsValue (shortest m.natAbs), zeros, ?_, by omega, by simpa using hvalue⟩⟩
      · simp only [numberText, if_neg hfits, if_neg hpoint, if_neg hsmall, if_pos hlen, if_pos hscale,
          hpower, if_neg hm]
        rw [hs, hrest]
        rfl
      · have hread := readMagnitude_digits _ (s := 101 :: 43 :: (decimal ((decimal m.natAbs).length - 1) ++ rest))
          (by simp) hone
          (by simp) (hletter _ _ (by decide)) (readFraction_none (by simp))
          (readExponent_digits ((decimal m.natAbs).length - 1) fun d hd => (hends d hd).1)
        rw [hs, hrest]
        refine hread.trans ?_
        have hexp : (((decimal m.natAbs).length - 1 : Nat) : Int) - (([] : JsString).length : Nat) = zeros := by
          simp only [List.length_nil]
          omega
        rw [hexp, List.append_nil]
    | cons d t =>
      have hlen : (shortest m.natAbs).length ≠ 1 := by rw [hs, hrest]; simp
      refine ⟨c :: 46 :: ((d :: t) ++ 101 :: 43 :: decimal ((decimal m.natAbs).length - 1)),
        ?_, ⟨c, rfl, hdigit⟩, fun rest hends =>
        ⟨digitsValue (shortest m.natAbs), zeros, ?_, by omega, by simpa using hvalue⟩⟩
      · simp only [numberText, if_neg hfits, if_neg hpoint, if_neg hsmall, if_neg hlen, if_pos hscale,
          hpower, if_neg hm]
        rw [hs, hrest]
        rfl
      · have hfraction : ∀ x ∈ d :: t, isDigit x = true := fun x hx =>
          hshort x (by rw [hs, hrest]; exact List.mem_cons_of_mem _ hx)
        have hread := readMagnitude_digits _
          (s := 46 :: ((d :: t) ++ 101 :: 43 :: (decimal ((decimal m.natAbs).length - 1) ++ rest))) (by simp) hone
          (by simp) (hletter _ _ (by decide)) (readFraction_digits (by simp) hfraction (hletter _ _ (by decide)))
          (readExponent_digits ((decimal m.natAbs).length - 1) fun d hd => (hends d hd).1)
        rw [hs, hrest]
        simp only [List.cons_append, List.append_assoc, List.nil_append] at hread ⊢
        refine hread.trans ?_
        have hexp : (((decimal m.natAbs).length - 1 : Nat) : Int) - ((d :: t).length : Nat) = zeros := by
          rw [hs, hrest] at hlength
          simp only [List.length_cons] at hlength ⊢
          omega
        rw [hexp]

/-- A number that was written is read back. -/
theorem readNumber_text (m : Int) {rest : JsString} (hrest : Ends rest) :
    readNumber (numberText m 0 ++ rest) = some (.num m 0, rest) := by
  by_cases hm : m = 0
  · have hread := readMagnitude_digits [48] (s := rest) (by simp)
      (fun c hc => by rw [List.mem_singleton.mp hc]; decide) (by simp) (fun c hc => (hrest c hc).1)
      (readFraction_none fun h => (hrest _ h).2.1 rfl) (readExponent_none hrest)
    rw [hm, show numberText 0 0 = [48] from rfl, readNumber, if_neg (by simp), hread]
    rfl
  · obtain ⟨t, htext, ⟨c, hc, hdigit⟩, hread⟩ := readMagnitude_text hm
    obtain ⟨k, e, hread, he, hvalue⟩ := hread rest hrest
    obtain ⟨n, rfl⟩ := Int.eq_ofNat_of_zero_le he
    rw [Int.toNat_natCast] at hvalue
    have hnumber : ∀ x : Int, numberOf x (n : Int) = .num (x * 10 ^ n) 0 := fun x => by
      rw [numberOf, if_pos he, Int.toNat_natCast]
    have habs : (k : Int) * 10 ^ n = m.natAbs := by
      rw [← hvalue]
      push_cast
      rfl
    rw [htext, readNumber]
    split
    · rw [if_pos (by rfl), List.cons_append, List.tail_cons, hread]
      simp only [Option.map_some, hnumber, Int.neg_mul, habs]
      rw [show -(m.natAbs : Int) = m by omega]
    · have hsign : (t ++ rest).head? ≠ some 45 := by
        cases t with
        | nil => cases hc
        | cons d t =>
          cases hc
          simp only [List.cons_append, List.head?_cons, ne_eq, Option.some.injEq]
          intro h
          rw [h] at hdigit
          exact absurd hdigit (by decide)
      rw [if_neg hsign, hread]
      simp only [Option.map_some, hnumber, habs]
      rw [show (m.natAbs : Int) = m by omega]

/-! ## Values, read back -/

mutual

/-- The numbers are integers, and no object has two members of one name. -/
def Plain : Json → Prop
  | .null | .bool _ | .str _ => True
  | .num _ e => e = 0
  | .arr l => PlainItems l
  | .obj ms => (ms.map (·.1)).Nodup ∧ PlainMembers ms

def PlainItems : List Json → Prop
  | [] => True
  | v :: l => Plain v ∧ PlainItems l

def PlainMembers : List (JsString × Json) → Prop
  | [] => True
  | m :: ms => Plain m.2 ∧ PlainMembers ms

end

theorem plainItems_iff {l : List Json} : PlainItems l ↔ ∀ v ∈ l, Plain v := by
  induction l with
  | nil => simp [PlainItems]
  | cons v l ih => simp [PlainItems, ih]

theorem plainMembers_iff {ms : List (JsString × Json)} : PlainMembers ms ↔ ∀ m ∈ ms, Plain m.2 := by
  induction ms with
  | nil => simp [PlainMembers]
  | cons m ms ih => simp [PlainMembers, ih]

theorem skipBlanks_cons {c : UInt16} (h : isBlank c = false) (s : JsString) : skipBlanks (c :: s) = c :: s := by
  simp [skipBlanks, h]

theorem ends_cons {c : UInt16} (h : isDigit c = false ∧ c ≠ 46 ∧ c ≠ 101 ∧ c ≠ 69) (s : JsString) : Ends (c :: s) := by
  intro d hd
  cases hd
  exact h

theorem ends_nil : Ends [] := by
  intro c hc
  cases hc

/-- What a number begins with. -/
theorem numberText_head (m : Int) : ∃ c s, numberText m 0 = c :: s ∧ (isDigit c = true ∨ c = 45) := by
  by_cases hm : m = 0
  · exact ⟨48, [], by rw [hm]; rfl, Or.inl (by decide)⟩
  · obtain ⟨t, htext, ⟨c, hc, hdigit⟩, -⟩ := readMagnitude_text hm
    obtain ⟨d, t, rfl⟩ : ∃ d t', t = d :: t' := by
      cases t with
      | nil => cases hc
      | cons d t => exact ⟨d, t, rfl⟩
    cases hc
    rw [htext]
    split
    · exact ⟨45, _, rfl, Or.inr rfl⟩
    · exact ⟨c, _, rfl, Or.inl hdigit⟩

theorem number_marks {c : UInt16} (h : isDigit c = true ∨ c = 45) :
    isBlank c = false ∧ c ≠ 34 ∧ c ≠ 91 ∧ c ≠ 93 ∧ c ≠ 123 ∧ c ≠ 110 ∧ c ≠ 116 ∧ c ≠ 102 := by
  rcases h with h | rfl
  · have hbounds : 48 ≤ c.toNat ∧ c.toNat ≤ 57 := by
      simpa [isDigit, UInt16.le_iff_toNat_le] using h
    have hne : ∀ d : UInt16, d.toNat < 48 ∨ 57 < d.toNat → c ≠ d := by
      intro d hd heq
      rw [heq] at hbounds
      omega
    refine ⟨?_, hne _ (by decide), hne _ (by decide), hne _ (by decide), hne _ (by decide),
      hne _ (by decide), hne _ (by decide),
      hne _ (by decide)⟩
    simp [isBlank, hne 32 (by decide), hne 9 (by decide), hne 10 (by decide), hne 13 (by decide)]
  · decide

/-- What a value begins with. -/
theorem stringify_head {v : Json} (h : Plain v) : ∃ c s, v.stringify = c :: s ∧ isBlank c = false ∧ c ≠ 93 := by
  cases v with
  | null => exact ⟨110, _, rfl, by decide, by decide⟩
  | bool b =>
    cases b with
    | false => exact ⟨102, _, rfl, by decide, by decide⟩
    | true => exact ⟨116, _, rfl, by decide, by decide⟩
  | num m e =>
    obtain rfl : e = 0 := h
    obtain ⟨c, s, hs, hc⟩ := numberText_head m
    obtain ⟨hblank, -, -, hend, -⟩ := number_marks hc
    exact ⟨c, s, hs, hblank, hend⟩
  | str s => exact ⟨34, _, rfl, by decide, by decide⟩
  | arr l =>
    cases l with
    | nil => exact ⟨91, _, rfl, by decide, by decide⟩
    | cons v l => exact ⟨91, _, rfl, by decide, by decide⟩
  | obj ms =>
    cases ms with
    | nil => exact ⟨123, _, rfl, by decide, by decide⟩
    | cons m ms => exact ⟨123, _, rfl, by decide, by decide⟩

theorem putMember_new {members : List (JsString × Json)} {name : JsString} (h : name ∉ members.map (·.1))
    (value : Json) :
    putMember members name value = members ++ [(name, value)] := by
  refine if_neg ?_
  simp only [List.any_eq_true, decide_eq_true_eq, not_exists, not_and]
  intro m hm hname
  exact h (List.mem_map.mpr ⟨m, hm, hname⟩)

theorem ends_items (l : List Json) (rest : JsString) : Ends (stringifyItems l ++ 93 :: rest) := by
  cases l with
  | nil => exact ends_cons (by decide) rest
  | cons v l => exact ends_cons (by decide) _

theorem ends_members (ms : List (JsString × Json)) (rest : JsString) : Ends (stringifyMembers ms ++ 125 :: rest) := by
  cases ms with
  | nil => exact ends_cons (by decide) rest
  | cons m ms => exact ends_cons (by decide) _

mutual

theorem readValue_stringify : ∀ (v : Json) (n : Nat) (rest : JsString), Plain v → v.stringify.length < n → Ends rest →
    readValue n (v.stringify ++ rest) = some (v, rest)
  | _, 0, _, _, h, _ => absurd h (Nat.not_lt_zero _)
  | .null, n + 1, rest, _, _, _ => by
    rw [readValue, show Json.null.stringify ++ rest = 110 :: 117 :: 108 :: 108 :: rest from rfl,
      skipBlanks_cons (by decide)]
    simp [readWord, startsWith, js]
  | .bool true, n + 1, rest, _, _, _ => by
    rw [readValue, show (Json.bool true).stringify ++ rest = 116 :: 114 :: 117 :: 101 :: rest from rfl,
      skipBlanks_cons (by decide)]
    simp [readWord, startsWith, js]
  | .bool false, n + 1, rest, _, _, _ => by
    rw [readValue, show (Json.bool false).stringify ++ rest = 102 :: 97 :: 108 :: 115 :: 101 :: rest from rfl,
      skipBlanks_cons (by decide)]
    simp [readWord, startsWith, js]
  | .num m e, n + 1, rest, hv, _, hrest => by
    obtain rfl : e = 0 := hv
    obtain ⟨c, t, ht, hc⟩ := numberText_head m
    obtain ⟨hblank, h34, h91, -, h123, h110, h116, h102⟩ := number_marks hc
    have hread := readNumber_text m hrest
    rw [show (Json.num m 0).stringify = numberText m 0 from rfl]
    rw [ht, List.cons_append] at hread ⊢
    rw [readValue, skipBlanks_cons hblank]
    simp only [h34, h91, h123, h110, h116, h102, if_false]
    exact hread
  | .str s, n + 1, rest, _, _, _ => by
    rw [show (Json.str s).stringify ++ rest = 34 :: ((codePoints s).flatMap escape ++ 34 :: rest) by
      simp [stringify, quote], readValue, skipBlanks_cons (by decide)]
    simp only [if_true, readString_quoted]
    rfl
  | .arr [], n + 1, rest, _, _, _ => by
    rw [show (Json.arr []).stringify ++ rest = 91 :: 93 :: rest from rfl, readValue, skipBlanks_cons (by decide)]
    simp [skipBlanks_cons (show isBlank 93 = false by decide)]
  | .arr (v :: l), n + 1, rest, hv, hn, hrest => by
    obtain ⟨c, t, ht, hblank, hend⟩ := stringify_head hv.1
    have hitems := readItems_stringify (v :: l) n rest [] hv (by simp) (by
      simp only [stringify, stringifyItems, List.length_cons, List.length_append] at hn ⊢
      omega)
    have htext : (Json.arr (v :: l)).stringify ++ rest = 91 :: ((stringifyItems (v :: l)).tail ++ 93 :: rest) := by
      simp [stringify, stringifyItems]
    have hhead : (skipBlanks ((stringifyItems (v :: l)).tail ++ 93 :: rest)).head? ≠ some 93 := by
      simp only [stringifyItems, List.tail_cons, ht, List.cons_append]
      rw [skipBlanks_cons hblank]
      simpa using hend
    rw [htext, readValue, skipBlanks_cons (by decide)]
    simp only [if_neg (show (91 : UInt16) ≠ 34 by decide), if_true, if_neg hhead, hitems, List.nil_append]
  | .obj [], n + 1, rest, _, _, _ => by
    rw [show (Json.obj []).stringify ++ rest = 123 :: 125 :: rest from rfl, readValue, skipBlanks_cons (by decide)]
    simp [skipBlanks_cons (show isBlank 125 = false by decide)]
  | .obj (m :: ms), n + 1, rest, hv, hn, hrest => by
    have hmembers := readMembers_stringify (m :: ms) n rest [] hv.2 hv.1 (by simp) (by
      simp only [stringify, stringifyMembers, List.length_cons, List.length_append] at hn ⊢
      omega)
    have htext : (Json.obj (m :: ms)).stringify ++ rest = 123 ::
      ((stringifyMembers (m :: ms)).tail ++ 125 :: rest) := by
      simp [stringify, stringifyMembers]
    have hhead : (skipBlanks ((stringifyMembers (m :: ms)).tail ++ 125 :: rest)).head? ≠ some 125 := by
      simp only [stringifyMembers, List.tail_cons, quote, List.cons_append]
      rw [skipBlanks_cons (by decide)]
      simp
    rw [htext, readValue, skipBlanks_cons (by decide)]
    simp only [if_neg (show (123 : UInt16) ≠ 34 by decide), if_neg (show (123 : UInt16) ≠ 91 by decide),
      if_true, if_neg hhead,
      hmembers, List.nil_append]

theorem readItems_stringify : ∀ (l : List Json) (n : Nat) (rest : JsString) (before : List Json),
    PlainItems l → l ≠ [] →
    (stringifyItems l).length < n →
    readItems n ((stringifyItems l).tail ++ 93 :: rest) before = some (.arr (before ++ l), rest)
  | _, 0, _, _, _, _, h => absurd h (Nat.not_lt_zero _)
  | [], _, _, _, _, h, _ => absurd rfl h
  | v :: l, n + 1, rest, before, hl, _, hn => by
    have hvalue := readValue_stringify v n (stringifyItems l ++ 93 :: rest) hl.1 (by
      simp only [stringifyItems, List.length_cons, List.length_append] at hn
      omega) (ends_items l rest)
    have htext : (stringifyItems (v :: l)).tail ++ 93 :: rest = v.stringify ++ (stringifyItems l ++ 93 :: rest) := by
      simp [stringifyItems]
    rw [htext, readItems, hvalue]
    cases l with
    | nil => simp [stringifyItems, skipBlanks_cons (show isBlank 93 = false by decide)]
    | cons w l =>
      have hrest := readItems_stringify (w :: l) n rest (before ++ [v]) hl.2 (by simp) (by
        simp only [stringifyItems, List.length_cons, List.length_append] at hn ⊢
        omega)
      simp only [Option.bind_eq_bind, Option.bind_some]
      rw [show stringifyItems (w :: l) ++ 93 :: rest = 44 :: ((stringifyItems (w :: l)).tail ++ 93 :: rest) by simp
        [stringifyItems],
        skipBlanks_cons (by decide)]
      simp only [if_true, hrest, List.append_assoc, List.cons_append, List.nil_append]

theorem readMembers_stringify : ∀ (ms : List (JsString × Json)) (n : Nat) (rest : JsString)
    (before : List (JsString × Json)),
    PlainMembers ms → ((before ++ ms).map (·.1)).Nodup → ms ≠ [] → (stringifyMembers ms).length < n →
    readMembers n ((stringifyMembers ms).tail ++ 125 :: rest) before = some (.obj (before ++ ms), rest)
  | _, 0, _, _, _, _, _, h => absurd h (Nat.not_lt_zero _)
  | [], _, _, _, _, _, h, _ => absurd rfl h
  | (k, v) :: ms, n + 1, rest, before, hms, hnodup, _, hn => by
    have hvalue := readValue_stringify v n (stringifyMembers ms ++ 125 :: rest) hms.1 (by
      simp only [stringifyMembers, List.length_cons, List.length_append] at hn
      omega) (ends_members ms rest)
    have htext : (stringifyMembers ((k, v) :: ms)).tail ++ 125 :: rest =
        34 :: ((codePoints k).flatMap escape ++ 34 ::
          (58 :: (v.stringify ++ (stringifyMembers ms ++ 125 :: rest)))) := by
      simp [stringifyMembers, quote]
    have hnew : k ∉ before.map (·.1) := by
      rw [List.map_append, List.nodup_append] at hnodup
      intro hk
      exact hnodup.2.2 k hk k (by simp) rfl
    rw [htext, readMembers, skipBlanks_cons (by decide)]
    simp only [ne_eq, not_true_eq_false, if_false, readString_quoted, Option.bind_eq_bind, Option.bind_some]
    rw [skipBlanks_cons (by decide)]
    simp only [not_true_eq_false, if_false, hvalue, Option.bind_some, putMember_new hnew]
    cases ms with
    | nil => simp [stringifyMembers, skipBlanks_cons (show isBlank 125 = false by decide)]
    | cons m ms =>
      have hrest := readMembers_stringify (m :: ms) n rest (before ++ [(k, v)]) hms.2 (by simpa using hnodup)
        (by simp) (by
        simp only [stringifyMembers, List.length_cons, List.length_append] at hn ⊢
        omega)
      rw [show stringifyMembers (m :: ms) ++ 125 :: rest = 44 :: ((stringifyMembers (m :: ms)).tail ++ 125 :: rest) by
        simp [stringifyMembers], skipBlanks_cons (by decide)]
      simp only [if_true, hrest, List.append_assoc, List.cons_append, List.nil_append]

end

/-- What was written is read back. -/
theorem parse_stringify {v : Json} (h : Plain v) : parse v.stringify = some v := by
  have hread := readValue_stringify v (v.stringify.length + 1) [] h (Nat.lt_succ_self _) ends_nil
  rw [List.append_nil] at hread
  rw [parse, hread]
  rfl

end NotifyHub.Json
