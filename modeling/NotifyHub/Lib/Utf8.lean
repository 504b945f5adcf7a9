/-
  NotifyHub.Lib.Utf8 — JavaScript strings as UTF-8 bytes, and bytes as strings.

  `encode` writes a string's scalar values; a lone surrogate has none and is written as
  U+FFFD. `decode` never fails: each longest part of the bytes that could still have begun
  a character, and does not, is one U+FFFD. A string without lone surrogates survives
  (`decode_encode`). Bytes survive when their text holds no U+FFFD (`encode_decode`), and
  only then: every text with a U+FFFD has another spelling of the same length
  (`other_spelling`).
-/

import NotifyHub.Lib.Base64

namespace NotifyHub.Utf8

open Base64 (Bytes byte)

/-! ## Scalar values -/

def Scalar (n : Nat) : Prop := n < 0xd800 ∨ 0xe000 ≤ n ∧ n < 0x110000

/-- U+FFFD, the replacement character. -/
def replacement : Nat := 0xfffd

/-- The code units of a scalar value. -/
def utf16 (n : Nat) : JsString :=
  if n < 0x10000 then [UInt16.ofNat n]
  else [UInt16.ofNat (0xd800 + (n - 0x10000) / 0x400), UInt16.ofNat (0xdc00 + (n - 0x10000) % 0x400)]

/-- The bytes of a scalar value. -/
def utf8 (n : Nat) : Bytes :=
  if n < 0x80 then [byte n]
  else if n < 0x800 then [byte (0xc0 + n / 0x40), byte (0x80 + n % 0x40)]
  else if n < 0x10000 then [byte (0xe0 + n / 0x1000), byte (0x80 + n / 0x40 % 0x40), byte (0x80 + n % 0x40)]
  else [byte (0xf0 + n / 0x40000), byte (0x80 + n / 0x1000 % 0x40), byte (0x80 + n / 0x40 % 0x40),
    byte (0x80 + n % 0x40)]

/-- The value of one of `codePoints`; a lone surrogate counts as U+FFFD. -/
def scalarValue : JsString → Nat
  | [c] => if isHighSurrogate c || isLowSurrogate c then replacement else c.toNat
  | [c, d] => 0x10000 + (c.toNat - 0xd800) * 0x400 + (d.toNat - 0xdc00)
  | _ => replacement

theorem scalarValue_unit (c : UInt16) :
    scalarValue [c] = if isHighSurrogate c || isLowSurrogate c then replacement else c.toNat := rfl

theorem scalarValue_pair (c d : UInt16) :
    scalarValue [c, d] = 0x10000 + (c.toNat - 0xd800) * 0x400 + (d.toNat - 0xdc00) := rfl

def scalars (s : JsString) : List Nat := (codePoints s).map scalarValue

/-- `s.toWellFormed()` -/
def toWellFormed (s : JsString) : JsString := (scalars s).flatMap utf16

/-- `s.isWellFormed()` -/
def WellFormed (s : JsString) : Prop := toWellFormed s = s

instance (s : JsString) : Decidable (WellFormed s) := inferInstanceAs (Decidable (_ = _))

def encode (s : JsString) : Bytes := (scalars s).flatMap utf8

/-! ## Reading bytes -/

def isTail (b : UInt8) : Bool := 0x80 ≤ b.toNat && b.toNat < 0xc0

/-- The bytes that may follow a first byte: no overlong form, no surrogate, nothing past U+10FFFF. -/
def isSecond (a b : UInt8) : Bool :=
  if a = 0xe0 then 0xa0 ≤ b.toNat && b.toNat < 0xc0
  else if a = 0xed then 0x80 ≤ b.toNat && b.toNat < 0xa0
  else if a = 0xf0 then 0x90 ≤ b.toNat && b.toNat < 0xc0
  else if a = 0xf4 then 0x80 ≤ b.toNat && b.toNat < 0x90
  else isTail b

def point2 (a b : UInt8) : Nat := (a.toNat - 0xc0) * 0x40 + (b.toNat - 0x80)

def point3 (a b c : UInt8) : Nat := (a.toNat - 0xe0) * 0x1000 + (b.toNat - 0x80) * 0x40 + (c.toNat - 0x80)

def point4 (a b c d : UInt8) : Nat :=
  (a.toNat - 0xf0) * 0x40000 + (b.toNat - 0x80) * 0x1000 + (c.toNat - 0x80) * 0x40 + (d.toNat - 0x80)

/-- The value that `a` begins, and how many of the bytes after it belong to it. -/
def first (a : UInt8) (l : Bytes) : Nat × Nat :=
  if a.toNat < 0x80 then (a.toNat, 0)
  else if a.toNat < 0xc2 ∨ 0xf4 < a.toNat then (replacement, 0)
  else match l with
    | [] => (replacement, 0)
    | b :: l =>
      if isSecond a b = false then (replacement, 0)
      else if a.toNat < 0xe0 then (point2 a b, 1)
      else match l with
        | [] => (replacement, 1)
        | c :: l =>
          if isTail c = false then (replacement, 1)
          else if a.toNat < 0xf0 then (point3 a b c, 2)
          else match l with
            | [] => (replacement, 2)
            | d :: _ => if isTail d = false then (replacement, 2) else (point4 a b c d, 3)

/-- The values of the bytes after the next `skip`. -/
def decodeFrom : Nat → Bytes → List Nat
  | _, [] => []
  | skip + 1, _ :: l => decodeFrom skip l
  | 0, a :: l => (first a l).1 :: decodeFrom (first a l).2 l

def decodePoints (l : Bytes) : List Nat := decodeFrom 0 l

/-- `buffer.toString("utf8")` -/
def decode (l : Bytes) : JsString := (decodePoints l).flatMap utf16

theorem decodeFrom_eq (skip : Nat) (l : Bytes) : decodeFrom skip l = decodePoints (l.drop skip) := by
  induction l generalizing skip with
  | nil => cases skip <;> rfl
  | cons a l ih =>
    cases skip with
    | zero => rfl
    | succ skip => exact ih skip

@[simp] theorem decodePoints_nil : decodePoints [] = [] := rfl

theorem decodePoints_cons (a : UInt8) (l : Bytes) :
    decodePoints (a :: l) = (first a l).1 :: decodePoints (l.drop (first a l).2) := by
  rw [← decodeFrom_eq]
  rfl

/-! ## Bytes of a value -/

theorem byte_toNat_of_lt {n : Nat} (h : n < 256) : (byte n).toNat = n := by
  simp [byte, UInt8.toNat_ofNat']
  omega

theorem byte_eq {n : Nat} {a : UInt8} (h : n = a.toNat) : byte n = a := Base64.byte_toNat h

theorem isTail_byte {n : Nat} (h : n < 0x40) : isTail (byte (0x80 + n)) = true := by
  have hn := byte_toNat_of_lt (n := 0x80 + n) (by omega)
  simp only [isTail, hn, Bool.and_eq_true, decide_eq_true_eq]
  omega

theorem isTail_bounds {b : UInt8} (h : isTail b = true) : 0x80 ≤ b.toNat ∧ b.toNat < 0xc0 := by
  simpa [isTail] using h

theorem isSecond_iff {a b : UInt8} : isSecond a b = true ↔
    0x80 ≤ b.toNat ∧ b.toNat < 0xc0 ∧ (a.toNat = 0xe0 → 0xa0 ≤ b.toNat) ∧ (a.toNat = 0xed → b.toNat < 0xa0) ∧
      (a.toNat = 0xf0 → 0x90 ≤ b.toNat) ∧ (a.toNat = 0xf4 → b.toNat < 0x90) := by
  have hval : ∀ n : UInt8, a = n ↔ a.toNat = n.toNat := fun n => UInt8.toNat_inj.symm
  simp only [isSecond, hval, UInt8.reduceToNat]
  split
  · simp; omega
  · split
    · simp; omega
    · split
      · simp; omega
      · split
        · simp; omega
        · simp [isTail]; omega

theorem isTail_of_isSecond {a b : UInt8} (h : isSecond a b = true) : isTail b = true := by
  have h := isSecond_iff.mp h
  simp only [isTail, Bool.and_eq_true, decide_eq_true_eq]
  exact ⟨h.1, h.2.1⟩

theorem first_one {a : UInt8} (ha : a.toNat < 0x80) (l : Bytes) : first a l = (a.toNat, 0) := if_pos ha

theorem first_two {a b : UInt8} (ha : 0xc2 ≤ a.toNat) (ha' : a.toNat < 0xe0) (hb : isSecond a b = true) (l : Bytes) :
    first a (b :: l) = (point2 a b, 1) := by
  simp only [first, hb, Bool.true_eq_false, if_false]
  rw [if_neg (by omega), if_neg (by omega), if_pos ha']

theorem first_three {a b c : UInt8} (ha : 0xe0 ≤ a.toNat) (ha' : a.toNat < 0xf0) (hb : isSecond a b = true)
    (hc : isTail c = true) (l : Bytes) : first a (b :: c :: l) = (point3 a b c, 2) := by
  simp only [first, hb, hc, Bool.true_eq_false, if_false]
  rw [if_neg (by omega), if_neg (by omega), if_neg (by omega), if_pos ha']

theorem first_four {a b c d : UInt8} (ha : 0xf0 ≤ a.toNat) (ha' : a.toNat ≤ 0xf4) (hb : isSecond a b = true)
    (hc : isTail c = true) (hd : isTail d = true) (l : Bytes) : first a (b :: c :: d :: l) = (point4 a b c d, 3) := by
  simp only [first, hb, hc, hd, Bool.true_eq_false, if_false]
  rw [if_neg (by omega), if_neg (by omega), if_neg (by omega), if_neg (by omega)]

/-- The bytes of a value are read as that value, whatever follows. -/
theorem first_utf8 {n : Nat} (h : Scalar n) : ∃ a t, utf8 n = a :: t ∧ ∀ l, first a (t ++ l) = (n, t.length) := by
  unfold Scalar at h
  unfold utf8
  split
  · refine ⟨byte n, [], rfl, fun l => ?_⟩
    have hn := byte_toNat_of_lt (n := n) (by omega)
    exact (first_one (by omega) l).trans (by rw [hn]; rfl)
  · split
    · have ha := byte_toNat_of_lt (n := 0xc0 + n / 0x40) (by omega)
      have hb := byte_toNat_of_lt (n := 0x80 + n % 0x40) (by omega)
      generalize byte (0xc0 + n / 0x40) = a, byte (0x80 + n % 0x40) = b at *
      refine ⟨a, [b], rfl, fun l => ?_⟩
      have hsecond : isSecond a b = true := isSecond_iff.mpr (by omega)
      refine (first_two (by omega) (by omega) hsecond l).trans ?_
      have hn : point2 a b = n := by unfold point2; omega
      rw [hn]
      rfl
    · split
      · have hc := isTail_byte (n := n % 0x40) (by omega)
        have va := byte_toNat_of_lt (n := 0xe0 + n / 0x1000) (by omega)
        have vb := byte_toNat_of_lt (n := 0x80 + n / 0x40 % 0x40) (by omega)
        have vc := byte_toNat_of_lt (n := 0x80 + n % 0x40) (by omega)
        generalize byte (0xe0 + n / 0x1000) = a, byte (0x80 + n / 0x40 % 0x40) = b, byte (0x80 + n % 0x40) = c at *
        refine ⟨a, [b, c], rfl, fun l => ?_⟩
        have hsecond : isSecond a b = true := isSecond_iff.mpr (by omega)
        refine (first_three (by omega) (by omega) hsecond hc l).trans ?_
        have hn : point3 a b c = n := by unfold point3; omega
        rw [hn]
        rfl
      · have hc := isTail_byte (n := n / 0x40 % 0x40) (by omega)
        have hd := isTail_byte (n := n % 0x40) (by omega)
        have va := byte_toNat_of_lt (n := 0xf0 + n / 0x40000) (by omega)
        have vb := byte_toNat_of_lt (n := 0x80 + n / 0x1000 % 0x40) (by omega)
        have vc := byte_toNat_of_lt (n := 0x80 + n / 0x40 % 0x40) (by omega)
        have vd := byte_toNat_of_lt (n := 0x80 + n % 0x40) (by omega)
        generalize byte (0xf0 + n / 0x40000) = a, byte (0x80 + n / 0x1000 % 0x40) = b,
          byte (0x80 + n / 0x40 % 0x40) = c, byte (0x80 + n % 0x40) = d at *
        refine ⟨a, [b, c, d], rfl, fun l => ?_⟩
        have hsecond : isSecond a b = true := isSecond_iff.mpr (by omega)
        refine (first_four (by omega) (by omega) hsecond hc hd l).trans ?_
        have hn : point4 a b c d = n := by unfold point4; omega
        rw [hn]
        rfl

/-- `p` is a value with the number of bytes after its first, and these bytes are what writes it. -/
def Spells (a : UInt8) (l : Bytes) (p : Nat × Nat) : Prop :=
  ∃ t r, l = t ++ r ∧ t.length = p.2 ∧ Scalar p.1 ∧ utf8 p.1 = a :: t

theorem spells_two {a b : UInt8} {l : Bytes} (ha : 0xc2 ≤ a.toNat) (ha' : a.toNat < 0xe0) (hb : isTail b = true) :
    Spells a (b :: l) (point2 a b, 1) := by
  have hb := isTail_bounds hb
  refine ⟨[b], l, rfl, rfl, ?_, ?_⟩
  · unfold Scalar point2
    omega
  · unfold utf8 point2
    rw [if_neg (by omega), if_pos (by omega), byte_eq (a := a) (by omega), byte_eq (a := b) (by omega)]

theorem spells_three {a b c : UInt8} {l : Bytes} (ha : 0xe0 ≤ a.toNat) (ha' : a.toNat < 0xf0)
    (hb : isSecond a b = true) (hc : isTail c = true) : Spells a (b :: c :: l) (point3 a b c, 2) := by
  have hb := isSecond_iff.mp hb
  have hc := isTail_bounds hc
  refine ⟨[b, c], l, rfl, rfl, ?_, ?_⟩
  · unfold Scalar point3
    omega
  · unfold utf8 point3
    rw [if_neg (by omega), if_neg (by omega), if_pos (by omega), byte_eq (a := a) (by omega),
      byte_eq (a := b) (by omega), byte_eq (a := c) (by omega)]

theorem spells_four {a b c d : UInt8} {l : Bytes} (ha : 0xf0 ≤ a.toNat) (ha' : a.toNat ≤ 0xf4)
    (hb : isSecond a b = true) (hc : isTail c = true) (hd : isTail d = true) :
    Spells a (b :: c :: d :: l) (point4 a b c d, 3) := by
  have hb := isSecond_iff.mp hb
  have hc := isTail_bounds hc
  have hd := isTail_bounds hd
  refine ⟨[b, c, d], l, rfl, rfl, ?_, ?_⟩
  · unfold Scalar point4
    omega
  · unfold utf8 point4
    rw [if_neg (by omega), if_neg (by omega), if_neg (by omega), byte_eq (a := a) (by omega),
      byte_eq (a := b) (by omega), byte_eq (a := c) (by omega), byte_eq (a := d) (by omega)]

/-- What is read from bytes is either U+FFFD or a value written by exactly these bytes. -/
theorem first_sound (a : UInt8) (l : Bytes) : (first a l).1 = replacement ∨ Spells a l (first a l) := by
  unfold first
  split
  · right
    refine ⟨[], l, rfl, rfl, ?_, ?_⟩
    · simp only [Scalar]
      omega
    · simp only [utf8]
      rw [if_pos (by omega), byte_eq rfl]
  · split
    · exact Or.inl rfl
    · cases l with
      | nil => exact Or.inl rfl
      | cons b l =>
        dsimp only
        split
        · exact Or.inl rfl
        · have hb : isSecond a b = true := eq_true_of_ne_false ‹_›
          split
          · exact Or.inr (spells_two (by omega) (by omega) (isTail_of_isSecond hb))
          · cases l with
            | nil => exact Or.inl rfl
            | cons c l =>
              dsimp only
              split
              · exact Or.inl rfl
              · have hc : isTail c = true := eq_true_of_ne_false ‹_›
                split
                · exact Or.inr (spells_three (by omega) (by omega) hb hc)
                · cases l with
                  | nil => exact Or.inl rfl
                  | cons d l =>
                    dsimp only
                    split
                    · exact Or.inl rfl
                    · have hd : isTail d = true := eq_true_of_ne_false ‹_›
                      exact Or.inr (spells_four (by omega) (by omega) hb hc hd)

theorem scalar_replacement : Scalar replacement := by
  unfold Scalar replacement
  omega

theorem decodePoints_utf8 {n : Nat} (h : Scalar n) (l : Bytes) : decodePoints (utf8 n ++ l) = n :: decodePoints l := by
  obtain ⟨a, t, hutf8, hfirst⟩ := first_utf8 h
  rw [hutf8, List.cons_append, decodePoints_cons, hfirst, List.drop_left]

theorem decodePoints_flatMap {ns : List Nat} (h : ∀ n ∈ ns, Scalar n) (l : Bytes) :
    decodePoints (ns.flatMap utf8 ++ l) = ns ++ decodePoints l := by
  induction ns with
  | nil => rfl
  | cons n ns ih =>
    rw [List.flatMap_cons, List.append_assoc, decodePoints_utf8 (h n (by simp)), ih fun m hm => h m (by simp [hm])]
    rfl

/-- Induction along the values of a byte sequence. -/
theorem decodePoints_induction {P : Bytes → Prop} (nil : P [])
    (cons : ∀ a l, P (l.drop (first a l).2) → P (a :: l)) (l : Bytes) : P l := by
  generalize hn : l.length = n
  induction n using Nat.strong_induction_on generalizing l with
  | _ n ih =>
    cases l with
    | nil => exact nil
    | cons a l =>
      apply cons
      refine ih _ ?_ _ rfl
      rw [List.length_drop, ← hn, List.length_cons]
      omega

theorem scalar_decodePoints (l : Bytes) : ∀ n ∈ decodePoints l, Scalar n := by
  induction l using decodePoints_induction with
  | nil => simp
  | cons a l ih =>
    rw [decodePoints_cons]
    intro n hn
    rcases List.mem_cons.mp hn with rfl | hn
    · rcases first_sound a l with h | ⟨_, _, _, _, h, _⟩
      · rw [h]
        exact scalar_replacement
      · exact h
    · exact ih n hn

/-- Without U+FFFD among their values, the bytes are the ones that write these values. -/
theorem flatMap_decodePoints {l : Bytes} (h : replacement ∉ decodePoints l) : (decodePoints l).flatMap utf8 = l := by
  induction l using decodePoints_induction with
  | nil => rfl
  | cons a l ih =>
    rw [decodePoints_cons, List.mem_cons, not_or] at h
    rcases first_sound a l with hfirst | ⟨t, r, hl, hlen, -, hutf8⟩
    · exact absurd hfirst.symm h.1
    · have hdrop : l.drop (first a l).2 = r := by rw [← hlen, hl, List.drop_left]
      rw [hdrop] at h ih
      rw [decodePoints_cons, List.flatMap_cons, hutf8, hdrop, ih h.2, hl]
      rfl

/-! ## Code units of a value -/

theorem unit_toNat {n : Nat} (h : n < 0x10000) : (UInt16.ofNat n).toNat = n := by
  rw [UInt16.toNat_ofNat']
  omega

theorem isHighSurrogate_iff {c : UInt16} : isHighSurrogate c = true ↔ 0xd800 ≤ c.toNat ∧ c.toNat ≤ 0xdbff := by
  simp [isHighSurrogate, UInt16.le_iff_toNat_le]

theorem isLowSurrogate_iff {c : UInt16} : isLowSurrogate c = true ↔ 0xdc00 ≤ c.toNat ∧ c.toNat ≤ 0xdfff := by
  simp [isLowSurrogate, UInt16.le_iff_toNat_le]

theorem codePoints_cons {c : UInt16} (h : isHighSurrogate c = false) (s : JsString) :
    codePoints (c :: s) = [c] :: codePoints s := by
  cases s with
  | nil => rfl
  | cons d s => simp [codePoints, h]

/-- A scalar value is one unit that is no surrogate, or a pair of surrogates. -/
theorem utf16_cases {n : Nat} (h : Scalar n) :
    (∃ c, utf16 n = [c] ∧ isHighSurrogate c = false ∧ isLowSurrogate c = false ∧ c.toNat = n) ∨
    (∃ c d, utf16 n = [c, d] ∧ isHighSurrogate c = true ∧ isLowSurrogate d = true ∧ scalarValue [c, d] = n) := by
  unfold Scalar at h
  by_cases hn : n < 0x10000
  · have hc := unit_toNat hn
    refine Or.inl ⟨UInt16.ofNat n, if_pos hn, ?_, ?_, hc⟩
    · rw [← Bool.not_eq_true, isHighSurrogate_iff, hc]
      omega
    · rw [← Bool.not_eq_true, isLowSurrogate_iff, hc]
      omega
  · have hc := unit_toNat (n := 0xd800 + (n - 0x10000) / 0x400) (by omega)
    have hd := unit_toNat (n := 0xdc00 + (n - 0x10000) % 0x400) (by omega)
    refine Or.inr ⟨_, _, if_neg hn, ?_, ?_, ?_⟩
    · rw [isHighSurrogate_iff, hc]
      omega
    · rw [isLowSurrogate_iff, hd]
      omega
    · rw [scalarValue_pair, hc, hd]
      omega

theorem scalarValue_utf16 {n : Nat} (h : Scalar n) : scalarValue (utf16 n) = n := by
  rcases utf16_cases h with ⟨c, hc, hhigh, hlow, hval⟩ | ⟨c, d, hcd, -, -, hval⟩
  · rw [hc]
    rw [scalarValue_unit, hhigh, hlow]
    exact hval
  · rw [hcd, hval]

theorem codePoints_utf16 {n : Nat} (h : Scalar n) (s : JsString) :
    codePoints (utf16 n ++ s) = utf16 n :: codePoints s := by
  rcases utf16_cases h with ⟨c, hc, hhigh, -, -⟩ | ⟨c, d, hcd, hhigh, hlow, -⟩
  · rw [hc]
    exact codePoints_cons hhigh s
  · rw [hcd]
    simp [codePoints, hhigh, hlow]

theorem scalars_flatMap {ns : List Nat} (h : ∀ n ∈ ns, Scalar n) (s : JsString) :
    scalars (ns.flatMap utf16 ++ s) = ns ++ scalars s := by
  induction ns with
  | nil => rfl
  | cons n ns ih =>
    have hn := h n (by simp)
    rw [List.flatMap_cons, List.append_assoc, scalars, codePoints_utf16 hn, List.map_cons, scalarValue_utf16 hn]
    exact congrArg (n :: ·) (ih fun m hm => h m (by simp [hm]))

theorem scalar_unit (c : UInt16) : Scalar (scalarValue [c]) := by
  have hc := c.toNat_lt
  rw [scalarValue_unit]
  split
  · exact scalar_replacement
  · rename_i h
    rw [Bool.or_eq_true, isHighSurrogate_iff, isLowSurrogate_iff] at h
    unfold Scalar
    omega

theorem scalar_pair {c d : UInt16} (h : (isHighSurrogate c && isLowSurrogate d) = true) :
    Scalar (scalarValue [c, d]) := by
  rw [Bool.and_eq_true, isHighSurrogate_iff, isLowSurrogate_iff] at h
  rw [scalarValue_pair]
  unfold Scalar
  omega

theorem scalar_scalars (s : JsString) : ∀ n ∈ scalars s, Scalar n := by
  unfold scalars
  rw [List.forall_mem_map]
  induction s using codePoints.induct with
  | case1 => simp [codePoints]
  | case2 c => simpa [codePoints] using scalar_unit c
  | case3 c d s h ih => simpa [codePoints, h] using ⟨scalar_pair h, ih⟩
  | case4 c d s h ih => simpa [codePoints, h] using ⟨scalar_unit c, ih⟩

theorem utf16_unit {c : UInt16} (h : scalarValue [c] ≠ replacement) : utf16 (scalarValue [c]) = [c] := by
  have hc := c.toNat_lt
  rw [scalarValue_unit] at h ⊢
  split
  · rename_i hsurrogate
    exact absurd (if_pos hsurrogate) h
  · rw [utf16, if_pos (by omega), UInt16.ofNat_toNat]

theorem utf16_pair {c d : UInt16} (h : (isHighSurrogate c && isLowSurrogate d) = true) :
    utf16 (scalarValue [c, d]) = [c, d] := by
  rw [Bool.and_eq_true, isHighSurrogate_iff, isLowSurrogate_iff] at h
  have hhigh : 0xd800 + (scalarValue [c, d] - 0x10000) / 0x400 = c.toNat := by rw [scalarValue_pair]; omega
  have hlow : 0xdc00 + (scalarValue [c, d] - 0x10000) % 0x400 = d.toNat := by rw [scalarValue_pair]; omega
  have hlarge : ¬ scalarValue [c, d] < 0x10000 := by rw [scalarValue_pair]; omega
  rw [utf16, if_neg hlarge, hhigh, hlow, UInt16.ofNat_toNat, UInt16.ofNat_toNat]

/-! ## Strings without lone surrogates -/

theorem wellFormed_flatMap {ns : List Nat} (h : ∀ n ∈ ns, Scalar n) : WellFormed (ns.flatMap utf16) := by
  have hscalars := scalars_flatMap h []
  rw [List.append_nil] at hscalars
  rw [WellFormed, toWellFormed, hscalars]
  congr 1
  exact List.append_nil ns

theorem WellFormed.append {s t : JsString} (hs : WellFormed s) (ht : WellFormed t) : WellFormed (s ++ t) := by
  have hall : ∀ n ∈ scalars s ++ scalars t, Scalar n := by
    intro n hn
    rcases List.mem_append.mp hn with hn | hn
    · exact scalar_scalars s n hn
    · exact scalar_scalars t n hn
  have happend : (scalars s ++ scalars t).flatMap utf16 = s ++ t := by
    rw [List.flatMap_append]
    exact congrArg₂ (· ++ ·) hs ht
  rw [← happend]
  exact wellFormed_flatMap hall

/-- Units below the surrogates stand for themselves. -/
theorem wellFormed_of_lt {s : JsString} (h : ∀ c ∈ s, c.toNat < 0xd800) : WellFormed s := by
  have hunit : ∀ c ∈ s, utf16 c.toNat = [c] := by
    intro c hc
    have hlt := h c hc
    rw [utf16, if_pos (by omega), UInt16.ofNat_toNat]
  have hs : (s.map UInt16.toNat).flatMap utf16 = s := by
    rw [List.flatMap_map]
    exact (List.flatMap_congr hunit).trans (by simp)
  rw [← hs]
  apply wellFormed_flatMap
  intro n hn
  obtain ⟨c, hc, rfl⟩ := List.mem_map.mp hn
  exact Or.inl (h c hc)

theorem wellFormed_of_ascii {s : JsString} (h : Ascii s) : WellFormed s := by
  apply wellFormed_of_lt
  intro c hc
  have hlt := h c hc
  omega

/-- A code point is one unit or a pair of surrogates. -/
theorem mem_codePoints {s p : JsString} (h : p ∈ codePoints s) :
    (∃ c, p = [c]) ∨ ∃ c d, p = [c, d] ∧ (isHighSurrogate c && isLowSurrogate d) = true := by
  induction s using codePoints.induct with
  | case1 => simp [codePoints] at h
  | case2 c =>
    simp only [codePoints, List.mem_singleton] at h
    exact Or.inl ⟨c, h⟩
  | case3 c d s hpair ih =>
    simp only [codePoints, hpair, if_true, List.mem_cons] at h
    rcases h with h | h
    · exact Or.inr ⟨c, d, h, hpair⟩
    · exact ih h
  | case4 c d s hpair ih =>
    simp only [codePoints, hpair, Bool.false_eq_true, if_false, List.mem_cons] at h
    rcases h with h | h
    · exact Or.inl ⟨c, h⟩
    · exact ih h

theorem wellFormed_unit {c : UInt16} (hhigh : isHighSurrogate c = false) (hlow : isLowSurrogate c = false) :
    WellFormed [c] := by
  have hc := c.toNat_lt
  have hvalue : scalarValue [c] = c.toNat := by
    rw [scalarValue_unit, hhigh, hlow]
    rfl
  have hunit : toWellFormed [c] = utf16 (scalarValue [c]) := by
    simp [toWellFormed, scalars, codePoints]
  rw [WellFormed, hunit, hvalue, utf16, if_pos (by omega), UInt16.ofNat_toNat]

theorem wellFormed_pair {c d : UInt16} (h : (isHighSurrogate c && isLowSurrogate d) = true) : WellFormed [c, d] := by
  have hpair : toWellFormed [c, d] = utf16 (scalarValue [c, d]) := by
    simp [toWellFormed, scalars, codePoints, h]
  rw [WellFormed, hpair, utf16_pair h]

theorem wellFormed_decode (l : Bytes) : WellFormed (decode l) := wellFormed_flatMap (scalar_decodePoints l)

theorem utf16_replacement : utf16 replacement = [0xfffd] := rfl

/-- A unit U+FFFD stands for the value of that number only. -/
theorem replacement_mem {ns : List Nat} (h : ∀ n ∈ ns, Scalar n) : 0xfffd ∈ ns.flatMap utf16 ↔ replacement ∈ ns := by
  constructor
  · intro hmem
    obtain ⟨n, hn, hmem⟩ := List.mem_flatMap.mp hmem
    rcases utf16_cases (h n hn) with ⟨c, hc, -, -, hval⟩ | ⟨c, d, hcd, hhigh, hlow, -⟩
    · rw [hc, List.mem_singleton] at hmem
      rw [← hmem] at hval
      have hval : n = replacement := hval.symm
      exact hval ▸ hn
    · rw [isHighSurrogate_iff] at hhigh
      rw [isLowSurrogate_iff] at hlow
      rw [hcd, List.mem_cons, List.mem_singleton] at hmem
      rcases hmem with h | h
      · rw [← h] at hhigh
        exact absurd hhigh (by decide)
      · rw [← h] at hlow
        exact absurd hlow (by decide)
  · intro hmem
    exact List.mem_flatMap.mpr ⟨replacement, hmem, by simp [utf16_replacement]⟩

/-- Where replacing the lone surrogates leaves no U+FFFD, there were none. -/
theorem wellFormed_of_not_mem {s : JsString} (h : 0xfffd ∉ toWellFormed s) : WellFormed s := by
  rw [toWellFormed, replacement_mem (scalar_scalars s)] at h
  unfold WellFormed toWellFormed
  unfold scalars at h ⊢
  induction s using codePoints.induct with
  | case1 => rfl
  | case2 c =>
    simp only [codePoints, List.map_cons, List.map_nil, List.mem_singleton] at h
    simp only [codePoints, List.map_cons, List.map_nil, List.flatMap_cons, List.flatMap_nil, List.append_nil]
    exact utf16_unit fun hc => h hc.symm
  | case3 c d s hpair ih =>
    simp only [codePoints, hpair, if_true, List.map_cons, List.mem_cons, not_or] at h
    simp only [codePoints, hpair, if_true, List.map_cons, List.flatMap_cons]
    rw [utf16_pair hpair, ih h.2]
    rfl
  | case4 c d s hpair ih =>
    simp only [codePoints, hpair, Bool.false_eq_true, if_false, List.map_cons, List.mem_cons, not_or] at h
    simp only [codePoints, hpair, Bool.false_eq_true, if_false, List.map_cons, List.flatMap_cons]
    rw [utf16_unit fun hc => h.1 hc.symm, ih h.2]
    rfl

/-! ## There and back -/

theorem decode_encode_eq (s : JsString) : decode (encode s) = toWellFormed s := by
  have hpoints := decodePoints_flatMap (scalar_scalars s) []
  rw [List.append_nil, decodePoints_nil, List.append_nil] at hpoints
  rw [decode, encode, hpoints, toWellFormed]

/-- A string without lone surrogates is read back from its bytes. -/
theorem decode_encode {s : JsString} (h : WellFormed s) : decode (encode s) = s := (decode_encode_eq s).trans h

theorem encode_inj {s t : JsString} (hs : WellFormed s) (ht : WellFormed t) (h : encode s = encode t) : s = t := by
  rw [← decode_encode hs, h, decode_encode ht]

/-- Only a text itself has its bytes, if it holds no U+FFFD. -/
theorem eq_of_encode_eq {s t : JsString} (ht : WellFormed t) (hno : 0xfffd ∉ t) (h : encode s = encode t) : s = t := by
  have hs : toWellFormed s = t := by rw [← decode_encode_eq, h, decode_encode ht]
  have hwell : WellFormed s := wellFormed_of_not_mem (by rw [hs]; exact hno)
  exact hwell.symm.trans hs

/-- Bytes whose text holds no U+FFFD are the bytes of that text. -/
theorem encode_decode {l : Bytes} (h : 0xfffd ∉ decode l) : encode (decode l) = l := by
  have hscalar := scalar_decodePoints l
  have hscalars := scalars_flatMap hscalar []
  rw [List.append_nil] at hscalars
  rw [decode, replacement_mem hscalar] at h
  rw [encode, decode, hscalars]
  exact (congrArg _ (List.append_nil _)).trans (flatMap_decodePoints h)

/-- No value begins with a byte that only continues one. -/
theorem utf8_head {n : Nat} (h : Scalar n) : ∃ a t, utf8 n = a :: t ∧ isTail a = false := by
  obtain ⟨a, t, ha, hfirst⟩ := first_utf8 h
  refine ⟨a, t, ha, Bool.eq_false_iff.mpr fun htail => ?_⟩
  have hbounds := isTail_bounds htail
  have hnone : first a (t ++ []) = (replacement, 0) := by
    unfold first
    rw [if_neg (by omega), if_pos (by omega)]
  have heq := (hfirst []).symm.trans hnone
  simp only [Prod.mk.injEq] at heq
  rw [heq.1, List.length_eq_zero_iff.mp heq.2] at ha
  have hlen : (utf8 replacement).length = 1 := congrArg List.length ha
  exact absurd hlen (by decide)

/-- The first three bytes of a four-byte value, cut short, are one U+FFFD. -/
theorem decodePoints_cut {ns : List Nat} (h : ∀ n ∈ ns, Scalar n) :
    decodePoints (0xf0 :: 0x9f :: 0x98 :: ns.flatMap utf8) = replacement :: ns := by
  have hrest := decodePoints_flatMap h []
  rw [List.append_nil, decodePoints_nil, List.append_nil] at hrest
  have hfirst : first 0xf0 (0x9f :: 0x98 :: ns.flatMap utf8) = (replacement, 2) := by
    cases ns with
    | nil => rfl
    | cons n ns =>
      obtain ⟨a, t, ha, htail⟩ := utf8_head (h n (by simp))
      have hsecond : isSecond 0xf0 0x9f = true := by decide
      have hthird : isTail 0x98 = true := by decide
      rw [List.flatMap_cons, ha]
      simp [first, hsecond, hthird, htail]
  rw [decodePoints_cons, hfirst]
  exact congrArg (replacement :: ·) hrest

/-- A text with a U+FFFD has other bytes too, as many as its own. -/
theorem other_spelling {s : JsString} (hs : WellFormed s) (h : 0xfffd ∈ s) :
    ∃ l, l ≠ encode s ∧ l.length = (encode s).length ∧ decode l = s := by
  have hscalar := scalar_scalars s
  have hmem : replacement ∈ scalars s := by
    rw [← replacement_mem hscalar]
    exact (congrArg (0xfffd ∈ ·) hs).mpr h
  obtain ⟨before, after, hsplit⟩ := List.append_of_mem hmem
  rw [hsplit] at hscalar
  have hbefore : ∀ n ∈ before, Scalar n := fun n hn => hscalar n (by simp [hn])
  have hafter : ∀ n ∈ after, Scalar n := fun n hn => hscalar n (by simp [hn])
  have hencode : encode s = before.flatMap utf8 ++ ([0xef, 0xbf, 0xbd] ++ after.flatMap utf8) := by
    rw [encode, hsplit, List.flatMap_append, List.flatMap_cons]
    rfl
  refine ⟨before.flatMap utf8 ++ (0xf0 :: 0x9f :: 0x98 :: after.flatMap utf8), ?_, ?_, ?_⟩
  · rw [hencode]
    intro h
    have h := List.append_cancel_left h
    simp at h
  · rw [hencode]
    simp
  · rw [decode, decodePoints_flatMap hbefore, decodePoints_cut hafter, ← hsplit]
    exact hs

end NotifyHub.Utf8
