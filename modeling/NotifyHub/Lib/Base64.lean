/-
  NotifyHub.Lib.Base64 — base64 texts: three bytes are four characters of six bits each,
  the last group padded with `=`.

  `encode` writes the standard alphabet; `decode` also reads the URL-safe one, wants the
  padding, and wants the bits the padding stands for to be zero. What was encoded is
  decoded (`decode_encode`), and the length of a text follows from that of its bytes
  (`length_encode`).
-/

import NotifyHub.Lib.Text

namespace NotifyHub.Base64

abbrev Bytes := List UInt8

/-- The character of six bits. -/
def sextet (n : Nat) : UInt16 :=
  if n < 26 then UInt16.ofNat (n + 65)
  else if n < 52 then UInt16.ofNat (n + 71)
  else if n < 62 then UInt16.ofNat (n - 4)
  else if n = 62 then 43 else 47

/-- The six bits of a character, of either alphabet. -/
def value (c : UInt16) : Option Nat :=
  let n := c.toNat
  if 65 ≤ n ∧ n ≤ 90 then some (n - 65)
  else if 97 ≤ n ∧ n ≤ 122 then some (n - 71)
  else if 48 ≤ n ∧ n ≤ 57 then some (n + 4)
  else if n = 43 ∨ n = 45 then some 62
  else if n = 47 ∨ n = 95 then some 63
  else none

def pad : UInt16 := 61

def encode : Bytes → JsString
  | [] => []
  | [a] => [sextet (a.toNat / 4), sextet (a.toNat % 4 * 16), pad, pad]
  | [a, b] => [sextet (a.toNat / 4), sextet (a.toNat % 4 * 16 + b.toNat / 16), sextet (b.toNat % 16 * 4), pad]
  | a :: b :: c :: l =>
    sextet (a.toNat / 4) :: sextet (a.toNat % 4 * 16 + b.toNat / 16) :: sextet (b.toNat % 16 * 4 + c.toNat / 64) ::
      sextet (c.toNat % 64) :: encode l

/-- The byte of a number below 256. -/
def byte (n : Nat) : UInt8 := UInt8.ofNat n

def decode : JsString → Option Bytes
  | [] => some []
  | p :: q :: r :: s :: l => do
    let x ← value p
    let y ← value q
    if s = pad then
      if l ≠ [] then none
      else if r = pad then if y % 16 = 0 then some [byte (x * 4 + y / 16)] else none
      else do
        let z ← value r
        if z % 4 = 0 then some [byte (x * 4 + y / 16), byte (y % 16 * 16 + z / 4)] else none
    else do
      let z ← value r
      let w ← value s
      let bytes ← decode l
      some (byte (x * 4 + y / 16) :: byte (y % 16 * 16 + z / 4) :: byte (z % 4 * 64 + w) :: bytes)
  | _ => none

theorem value_sextet {n : Nat} (h : n < 64) : value (sextet n) = some n := by
  have hall : ∀ n : Fin 64, value (sextet n) = some n.val := by decide +kernel
  exact hall ⟨n, h⟩

theorem sextet_ne_pad {n : Nat} (h : n < 64) : sextet n ≠ pad := by
  have hall : ∀ n : Fin 64, sextet n ≠ pad := by decide +kernel
  exact hall ⟨n, h⟩

theorem byte_toNat {n : Nat} {a : UInt8} (h : n = a.toNat) : byte n = a := by
  rw [h, byte, UInt8.ofNat_toNat]

/-- What was encoded is decoded. -/
theorem decode_encode (l : Bytes) : decode (encode l) = some l := by
  induction l using encode.induct with
  | case1 => rfl
  | case2 a =>
    have ha := a.toNat_lt
    have v1 := value_sextet (n := a.toNat / 4) (by omega)
    have v2 := value_sextet (n := a.toNat % 4 * 16) (by omega)
    have h1 : byte (a.toNat / 4 * 4 + a.toNat % 4 * 16 / 16) = a := byte_toNat (by omega)
    have h2 : a.toNat % 4 * 16 % 16 = 0 := by omega
    simp only [encode, decode, v1, v2, Option.bind_eq_bind, Option.bind_some, ne_eq, not_true,
      if_false, if_true, h2, h1]
  | case3 a b =>
    have ha := a.toNat_lt
    have hb := b.toNat_lt
    have v1 := value_sextet (n := a.toNat / 4) (by omega)
    have v2 := value_sextet (n := a.toNat % 4 * 16 + b.toNat / 16) (by omega)
    have v3 := value_sextet (n := b.toNat % 16 * 4) (by omega)
    have hne : sextet (b.toNat % 16 * 4) ≠ pad := sextet_ne_pad (by omega)
    have h1 : byte (a.toNat / 4 * 4 + (a.toNat % 4 * 16 + b.toNat / 16) / 16) = a := byte_toNat (by omega)
    have h2 : byte ((a.toNat % 4 * 16 + b.toNat / 16) % 16 * 16 + b.toNat % 16 * 4 / 4) = b := byte_toNat (by omega)
    have h3 : b.toNat % 16 * 4 % 4 = 0 := by omega
    simp only [encode, decode, v1, v2, v3, Option.bind_eq_bind, Option.bind_some, ne_eq, not_true, if_false, if_true,
      if_neg hne, h3, h1, h2]
  | case4 a b c l ih =>
    have ha := a.toNat_lt
    have hb := b.toNat_lt
    have hc := c.toNat_lt
    have v1 := value_sextet (n := a.toNat / 4) (by omega)
    have v2 := value_sextet (n := a.toNat % 4 * 16 + b.toNat / 16) (by omega)
    have v3 := value_sextet (n := b.toNat % 16 * 4 + c.toNat / 64) (by omega)
    have v4 := value_sextet (n := c.toNat % 64) (by omega)
    have hne : sextet (c.toNat % 64) ≠ pad := sextet_ne_pad (by omega)
    have h1 : byte (a.toNat / 4 * 4 + (a.toNat % 4 * 16 + b.toNat / 16) / 16) = a := byte_toNat (by omega)
    have h2 : byte ((a.toNat % 4 * 16 + b.toNat / 16) % 16 * 16 + (b.toNat % 16 * 4 + c.toNat / 64) / 4) = b :=
      byte_toNat (by omega)
    have h3 : byte ((b.toNat % 16 * 4 + c.toNat / 64) % 4 * 64 + c.toNat % 64) = c := byte_toNat (by omega)
    simp only [encode, decode, v1, v2, v3, v4, ih, Option.bind_eq_bind, Option.bind_some, if_neg hne, h1, h2, h3]

theorem length_encode (l : Bytes) : (encode l).length = (l.length + 2) / 3 * 4 := by
  induction l using encode.induct with
  | case1 => rfl
  | case2 a => simp only [encode, List.length_cons, List.length_nil]
  | case3 a b => simp only [encode, List.length_cons, List.length_nil]
  | case4 a b c l ih =>
    simp only [encode, List.length_cons, ih]
    omega

/-! ## The URL-safe alphabet -/

/-- `/^[A-Za-z0-9_-]$/` -/
def isUrlSafe (c : UInt16) : Bool :=
  (65 ≤ c && c ≤ 90) || (97 ≤ c && c ≤ 122) || (48 ≤ c && c ≤ 57) || c == 95 || c == 45

/-- A character of `encode` in the URL-safe alphabet, which has no padding. -/
def urlSafe (c : UInt16) : Option UInt16 :=
  if c = 43 then some 45 else if c = 47 then some 95 else if c = pad then none else some c

/-- `buffer.toString("base64url")` -/
def encodeUrl (l : Bytes) : JsString := (encode l).filterMap urlSafe

theorem urlSafe_sextet {n : Nat} (h : n < 64) : ∃ c, urlSafe (sextet n) = some c ∧ isUrlSafe c = true := by
  have hall : ∀ n : Fin 64, (urlSafe (sextet n)).any isUrlSafe = true := by decide +kernel
  exact Option.any_eq_true _ _ |>.mp (hall ⟨n, h⟩)

theorem mem_encode {l : Bytes} {c : UInt16} (h : c ∈ encode l) : c = pad ∨ ∃ n < 64, c = sextet n := by
  induction l using encode.induct with
  | case1 => simp [encode] at h
  | case2 a =>
    have ha := a.toNat_lt
    simp only [encode, List.mem_cons, List.not_mem_nil, or_false] at h
    rcases h with h | h | h | h
    · exact Or.inr ⟨_, by omega, h⟩
    · exact Or.inr ⟨_, by omega, h⟩
    · exact Or.inl h
    · exact Or.inl h
  | case3 a b =>
    have ha := a.toNat_lt
    have hb := b.toNat_lt
    simp only [encode, List.mem_cons, List.not_mem_nil, or_false] at h
    rcases h with h | h | h | h
    · exact Or.inr ⟨_, by omega, h⟩
    · exact Or.inr ⟨_, by omega, h⟩
    · exact Or.inr ⟨_, by omega, h⟩
    · exact Or.inl h
  | case4 a b d l ih =>
    have ha := a.toNat_lt
    have hb := b.toNat_lt
    have hd := d.toNat_lt
    simp only [encode, List.mem_cons] at h
    rcases h with h | h | h | h | h
    · exact Or.inr ⟨_, by omega, h⟩
    · exact Or.inr ⟨_, by omega, h⟩
    · exact Or.inr ⟨_, by omega, h⟩
    · exact Or.inr ⟨_, by omega, h⟩
    · exact ih h

theorem isUrlSafe_encodeUrl (l : Bytes) : ∀ c ∈ encodeUrl l, isUrlSafe c = true := by
  intro c hc
  obtain ⟨d, hd, hdc⟩ := List.mem_filterMap.mp hc
  rcases mem_encode hd with rfl | ⟨n, hn, rfl⟩
  · simp [urlSafe, pad] at hdc
  · obtain ⟨e, he, hsafe⟩ := urlSafe_sextet hn
    rw [he, Option.some.injEq] at hdc
    exact hdc ▸ hsafe

theorem urlSafe_pad : urlSafe pad = none := by decide

theorem length_encodeUrl (l : Bytes) : (encodeUrl l).length = (4 * l.length + 2) / 3 := by
  unfold encodeUrl
  induction l using encode.induct with
  | case1 => rfl
  | case2 a =>
    have ha := a.toNat_lt
    obtain ⟨_, h1, -⟩ := urlSafe_sextet (n := a.toNat / 4) (by omega)
    obtain ⟨_, h2, -⟩ := urlSafe_sextet (n := a.toNat % 4 * 16) (by omega)
    simp only [encode, List.filterMap_cons, h1, h2, urlSafe_pad, List.filterMap_nil, List.length_cons, List.length_nil]
  | case3 a b =>
    have ha := a.toNat_lt
    have hb := b.toNat_lt
    obtain ⟨_, h1, -⟩ := urlSafe_sextet (n := a.toNat / 4) (by omega)
    obtain ⟨_, h2, -⟩ := urlSafe_sextet (n := a.toNat % 4 * 16 + b.toNat / 16) (by omega)
    obtain ⟨_, h3, -⟩ := urlSafe_sextet (n := b.toNat % 16 * 4) (by omega)
    simp only [encode, List.filterMap_cons, h1, h2, h3, urlSafe_pad, List.filterMap_nil,
      List.length_cons, List.length_nil]
  | case4 a b c l ih =>
    have ha := a.toNat_lt
    have hb := b.toNat_lt
    have hc := c.toNat_lt
    obtain ⟨_, h1, -⟩ := urlSafe_sextet (n := a.toNat / 4) (by omega)
    obtain ⟨_, h2, -⟩ := urlSafe_sextet (n := a.toNat % 4 * 16 + b.toNat / 16) (by omega)
    obtain ⟨_, h3, -⟩ := urlSafe_sextet (n := b.toNat % 16 * 4 + c.toNat / 64) (by omega)
    obtain ⟨_, h4, -⟩ := urlSafe_sextet (n := c.toNat % 64) (by omega)
    simp only [encode, List.filterMap_cons, h1, h2, h3, h4, List.length_cons, ih]
    omega

theorem encodeUrl_ne_nil {l : Bytes} (h : l ≠ []) : encodeUrl l ≠ [] := by
  cases l with
  | nil => exact absurd rfl h
  | cons a l =>
    have ha := a.toNat_lt
    obtain ⟨c, hc, -⟩ := urlSafe_sextet (n := a.toNat / 4) (by omega)
    have hfirst : sextet (a.toNat / 4) ∈ encode (a :: l) := by
      match l with
      | [] => simp [encode]
      | [_] => simp [encode]
      | _ :: _ :: _ => simp [encode]
    exact List.ne_nil_of_mem (List.mem_filterMap.mpr ⟨_, hfirst, hc⟩)

/-- A nonempty base64url text. -/
def UrlSafe (s : JsString) : Prop := s ≠ [] ∧ ∀ c ∈ s, isUrlSafe c = true

theorem isUrlSafe_lt {c : UInt16} (h : isUrlSafe c = true) : c.toNat < 128 := by
  simp only [isUrlSafe, Bool.or_eq_true, Bool.and_eq_true, decide_eq_true_eq, beq_iff_eq, UInt16.le_iff_toNat_le] at h
  rcases h with (((h | h) | h) | h) | h
  · exact Nat.lt_of_le_of_lt h.2 (by decide)
  · exact Nat.lt_of_le_of_lt h.2 (by decide)
  · exact Nat.lt_of_le_of_lt h.2 (by decide)
  · rw [h]
    decide
  · rw [h]
    decide

theorem UrlSafe.ascii {s : JsString} (h : UrlSafe s) : Ascii s := fun c hc => isUrlSafe_lt (h.2 c hc)

theorem UrlSafe.no_dot {s : JsString} (h : UrlSafe s) : dot ∉ s := fun hd => absurd (h.2 dot hd) (by decide)

end NotifyHub.Base64
