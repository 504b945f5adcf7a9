/-
  NotifyHub.Lib.Text — JavaScript strings: sequences of UTF-16 code units, lone
  surrogates included, with the operations the program uses.

  `decimal` is the `${n}` of a non-negative integer. A prefix without NUL followed by
  NUL can be read back (`splitNul`), so keys built as `${a}\u0000${b}` keep their
  parts apart whenever `a` holds no NUL (`joinNul_inj`).
-/

import Mathlib.Data.Nat.Digits.Defs
import Mathlib.Data.List.Basic

namespace NotifyHub

abbrev JsString := List UInt16

instance : LawfulBEq JsString := inferInstance

/-- A string literal of the source. -/
def js (s : String) : JsString := s.toList.map fun c => UInt16.ofNat c.toNat

/-- The code units `String.prototype.trim` and the regular expression `\s` take as white space. -/
def isSpace (c : UInt16) : Bool :=
  (9 ≤ c && c ≤ 13) || c == 32 || c == 0xa0 || c == 0x1680 || (0x2000 ≤ c && c ≤ 0x200a) ||
    c == 0x2028 || c == 0x2029 || c == 0x202f || c == 0x205f || c == 0x3000 || c == 0xfeff

def trimStart (s : JsString) : JsString := s.dropWhile isSpace

def trimEnd (s : JsString) : JsString := (s.reverse.dropWhile isSpace).reverse

def trim (s : JsString) : JsString := trimEnd (trimStart s)

/-- `s.startsWith(t)` -/
def startsWith (s t : JsString) : Bool := t.isPrefixOf s

def isHighSurrogate (c : UInt16) : Bool := 0xd800 ≤ c && c ≤ 0xdbff

def isLowSurrogate (c : UInt16) : Bool := 0xdc00 ≤ c && c ≤ 0xdfff

/-- `Array.from(s)`: a surrogate pair is one code point, a lone surrogate another. -/
def codePoints : JsString → List JsString
  | [] => []
  | [c] => [[c]]
  | c :: d :: s => if isHighSurrogate c && isLowSurrogate d then [c, d] :: codePoints s else [c] :: codePoints (d :: s)

theorem codePoints_flatten : ∀ (s : JsString), (codePoints s).flatten = s
  | [] => rfl
  | [_] => rfl
  | c :: d :: s => by
    rw [codePoints]
    split
    · rw [List.flatten_cons, codePoints_flatten s]; rfl
    · rw [List.flatten_cons, codePoints_flatten (d :: s)]; rfl

/-- The first code points of a text are still its first code points. -/
theorem codePoints_take : ∀ (s : JsString) (n : Nat), codePoints ((codePoints s).take n).flatten = (codePoints s).take n
  | _, 0 => rfl
  | [], _ + 1 => rfl
  | [_], _ + 1 => by simp [codePoints]
  | c :: d :: s, n + 1 => by
    rw [codePoints]
    split
    · rename_i hp
      rw [List.take_succ_cons, List.flatten_cons, List.cons_append, List.cons_append, List.nil_append,
        codePoints, if_pos hp,
        codePoints_take s n]
    · rename_i hp
      rw [List.take_succ_cons, List.flatten_cons, List.singleton_append]
      have ih := codePoints_take (d :: s) n
      cases n with
      | zero => rfl
      | succ n =>
        -- What follows `c` still starts with `d`.
        obtain ⟨r, hr⟩ : ∃ r, ((codePoints (d :: s)).take (n + 1)).flatten = d :: r := by
          cases s with
          | nil => exact ⟨[], by cases n <;> rfl⟩
          | cons e s =>
            rw [codePoints]
            split <;> exact ⟨_, rfl⟩
        rw [hr] at ih ⊢
        rw [codePoints, if_neg hp, ih]

def isHex (c : UInt16) : Bool :=
  (48 ≤ c && c ≤ 57) || (97 ≤ c && c ≤ 102) || (65 ≤ c && c ≤ 70)

/-- `/^[0-9a-f]{8}-[0-9a-f]{4}-[0-9a-f]{4}-[0-9a-f]{4}-[0-9a-f]{12}$/i` -/
def isUuid (s : JsString) : Bool :=
  s.length == 36 &&
    s.zipIdx.all fun (c, i) => if i = 8 ∨ i = 13 ∨ i = 18 ∨ i = 23 then c == 45 else isHex c

/-! ## Numbers in template strings -/

def digit (d : Nat) : UInt16 := UInt16.ofNat (48 + d)

/-- The decimal text of a non-negative integer. -/
def decimal (n : Nat) : JsString :=
  if n = 0 then [digit 0] else (Nat.digits 10 n).reverse.map digit

theorem digit_inj {d e : Nat} (hd : d < 10) (he : e < 10) (h : digit d = digit e) : d = e := by
  have h' := congrArg UInt16.toNat h
  simp only [digit, UInt16.toNat_ofNat'] at h'
  omega

theorem digit_ne_nul {d : Nat} (hd : d < 10) : digit d ≠ 0 := by
  intro h
  have h' := congrArg UInt16.toNat h
  simp only [digit, UInt16.toNat_ofNat', UInt16.toNat_zero] at h'
  omega

theorem map_digit_inj : ∀ {a b : List Nat}, (∀ d ∈ a, d < 10) → (∀ d ∈ b, d < 10) →
    a.map digit = b.map digit → a = b
  | [], [], _, _, _ => rfl
  | [], _ :: _, _, _, h => by simp at h
  | _ :: _, [], _, _, h => by simp at h
  | d :: a, e :: b, ha, hb, h => by
    simp only [List.map_cons, List.cons.injEq] at h
    rw [digit_inj (ha d (by simp)) (hb e (by simp)) h.1,
      map_digit_inj (fun x hx => ha x (by simp [hx])) (fun x hx => hb x (by simp [hx])) h.2]

/-- The decimal digits `decimal` renders. -/
def decimalDigits (n : Nat) : List Nat := if n = 0 then [0] else (Nat.digits 10 n).reverse

theorem decimal_eq (n : Nat) : decimal n = (decimalDigits n).map digit := by
  unfold decimal decimalDigits; split <;> rfl

theorem decimalDigits_lt (n : Nat) : ∀ d ∈ decimalDigits n, d < 10 := by
  intro d hd
  unfold decimalDigits at hd
  split at hd
  · simp at hd; omega
  · exact Nat.digits_lt_base (by decide) (List.mem_reverse.mp hd)

theorem decimalDigits_inj {m n : Nat} (h : decimalDigits m = decimalDigits n) : m = n := by
  have back : ∀ k, Nat.ofDigits 10 (decimalDigits k).reverse = k := by
    intro k
    unfold decimalDigits
    split
    · simp [*]
    · rw [List.reverse_reverse, Nat.ofDigits_digits]
  rw [← back m, h, back n]

theorem decimal_inj {m n : Nat} (h : decimal m = decimal n) : m = n := by
  rw [decimal_eq, decimal_eq] at h
  exact decimalDigits_inj (map_digit_inj (decimalDigits_lt m) (decimalDigits_lt n) h)

theorem nul_not_mem_decimal (n : Nat) : (0 : UInt16) ∉ decimal n := by
  rw [decimal_eq, List.mem_map]
  rintro ⟨d, hd, h⟩
  exact digit_ne_nul (decimalDigits_lt n d hd) h

/-- The lower-case digit of a number below 16. -/
def hexDigit (n : Nat) : UInt16 := UInt16.ofNat (if n < 10 then 48 + n else 87 + n)

theorem hexDigit_inj {m n : Nat} (hm : m < 16) (hn : n < 16) (h : hexDigit m = hexDigit n) : m = n := by
  have hall : ∀ m n : Fin 16, hexDigit m = hexDigit n → m = n := by decide +kernel
  exact congrArg Fin.val (hall ⟨m, hm⟩ ⟨n, hn⟩ h)

theorem hexDigit_lt {n : Nat} (h : n < 16) : (hexDigit n).toNat < 128 := by
  have hall : ∀ n : Fin 16, (hexDigit n).toNat < 128 := by decide +kernel
  exact hall ⟨n, h⟩

/-! ## ASCII texts, and dots -/

/-- ASCII text. -/
def Ascii (s : JsString) : Prop := ∀ c ∈ s, c.toNat < 128

theorem Ascii.append {s t : JsString} (hs : Ascii s) (ht : Ascii t) : Ascii (s ++ t) := by
  intro c hc
  rcases List.mem_append.mp hc with hc | hc
  · exact hs c hc
  · exact ht c hc

theorem Ascii.cons {c : UInt16} {s : JsString} (hc : c.toNat < 128) (hs : Ascii s) : Ascii (c :: s) := by
  intro d hd
  rcases List.mem_cons.mp hd with rfl | hd
  · exact hc
  · exact hs d hd

theorem Ascii.of_subset {s t : JsString} (h : ∀ c ∈ s, c ∈ t) (ht : Ascii t) : Ascii s := fun c hc => ht c (h c hc)

theorem ascii_decimal (n : Nat) : Ascii (decimal n) := by
  rw [decimal_eq]
  intro c hc
  obtain ⟨d, hd, rfl⟩ := List.mem_map.mp hc
  have hlt := decimalDigits_lt n d hd
  rw [digit, UInt16.toNat_ofNat']
  omega

/-- `.` -/
def dot : UInt16 := 46

theorem idxOf_dot {s : JsString} (h : dot ∉ s) (rest : JsString) :
    (s ++ dot :: rest).idxOf? dot = some s.length := by
  induction s with
  | nil => simp [List.idxOf?_cons]
  | cons c s ih =>
    simp only [List.mem_cons, not_or] at h
    rw [List.cons_append, List.idxOf?_cons, if_neg (by simpa using fun hc => h.1 hc.symm), ih h.2]
    rfl

/-! ## Numerals -/

def isDigit (c : UInt16) : Bool := 48 ≤ c && c ≤ 57

/-- The number of a text that `/^\d+$/` matches. -/
def numeral? (s : JsString) : Option Nat :=
  if s ≠ [] ∧ s.all isDigit then some (s.foldl (fun n c => n * 10 + (c.toNat - 48)) 0) else none

theorem digit_toNat {d : Nat} (hd : d < 10) : (digit d).toNat = 48 + d := by
  rw [digit, UInt16.toNat_ofNat']
  omega

theorem isDigit_digit {d : Nat} (hd : d < 10) : isDigit (digit d) = true := by
  have h := digit_toNat hd
  simp only [isDigit, Bool.and_eq_true, decide_eq_true_eq, UInt16.le_iff_toNat_le, h]
  exact ⟨Nat.le_add_right 48 d, by change 48 + d ≤ 57; omega⟩

theorem foldl_digit {l : List Nat} (hl : ∀ d ∈ l, d < 10) (n : Nat) :
    (l.map digit).foldl (fun n c => n * 10 + (c.toNat - 48)) n = l.foldl (fun n d => n * 10 + d) n := by
  induction l generalizing n with
  | nil => rfl
  | cons d l ih =>
    have hd := digit_toNat (hl d (by simp))
    simp only [List.map_cons, List.foldl_cons, hd, Nat.add_sub_cancel_left]
    exact ih (fun e he => hl e (by simp [he])) _

theorem decimalDigits_ne_nil (n : Nat) : decimalDigits n ≠ [] := by
  unfold decimalDigits
  split
  · simp
  · rename_i hn
    simpa [Nat.digits_eq_nil_iff_eq_zero] using hn

/-- The digits of a number are read back as the number. -/
theorem numeral_decimal (n : Nat) : numeral? (decimal n) = some n := by
  have hall := decimalDigits_lt n
  have hdigits : decimal n ≠ [] ∧ (decimal n).all isDigit = true := by
    rw [decimal_eq]
    refine ⟨by simpa using decimalDigits_ne_nil n, List.all_eq_true.mpr fun c hc => ?_⟩
    obtain ⟨d, hd, rfl⟩ := List.mem_map.mp hc
    exact isDigit_digit (hall d hd)
  rw [numeral?, if_pos hdigits, decimal_eq, foldl_digit hall]
  unfold decimalDigits
  split
  · rename_i hn
    rw [hn]
    rfl
  · have hfold : (fun (d n : Nat) => n * 10 + d) = fun d n => d + 10 * n := by
      funext d n
      omega
    have hback := Nat.ofDigits_digits 10 n
    rw [Nat.ofDigits_eq_foldr] at hback
    rw [List.foldl_reverse, hfold]
    exact congrArg some hback

/-- A numeral holds no dot. -/
theorem dot_not_mem_of_numeral {s : JsString} {n : Nat} (h : numeral? s = some n) : dot ∉ s := by
  unfold numeral? at h
  split at h
  · rename_i hs
    exact fun hmem => absurd (List.all_eq_true.mp hs.2 dot hmem) (by decide)
  · cases h

/-! ## Keys joined by NUL -/

/-- `${a}\u0000${b}` -/
def joinNul (a b : JsString) : JsString := a ++ 0 :: b

/-- What stands before the first NUL, and after it. -/
def splitNul (s : JsString) : JsString × JsString := (s.takeWhile (· != 0), (s.dropWhile (· != 0)).tail)

theorem splitNul_joinNul {a : JsString} (ha : 0 ∉ a) (b : JsString) : splitNul (joinNul a b) = (a, b) := by
  have hall : ∀ c ∈ a, (c != 0) = true := fun c hc => bne_iff_ne.mpr fun h => ha (h ▸ hc)
  rw [splitNul, joinNul, List.takeWhile_append_of_pos hall, List.dropWhile_append_of_pos hall]
  simp

theorem joinNul_inj {a a' b b' : JsString} (ha : 0 ∉ a) (ha' : 0 ∉ a') (h : joinNul a b = joinNul a' b') :
    a = a' ∧ b = b' := by
  have := congrArg splitNul h
  rw [splitNul_joinNul ha, splitNul_joinNul ha'] at this
  exact ⟨congrArg Prod.fst this, congrArg Prod.snd this⟩

end NotifyHub
