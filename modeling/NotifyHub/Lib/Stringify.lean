/-
  NotifyHub.Lib.Stringify — `JSON.stringify` of a JSON value.

  A string is written with its lone surrogates escaped, so what is written has none
  (`wellFormed_stringify`): its UTF-8 bytes say all of it.
-/

import NotifyHub.Lib.Json
import NotifyHub.Lib.Utf8

namespace NotifyHub

open Utf8 (WellFormed wellFormed_of_ascii)

namespace Json

/-! ## Texts of values -/

/-- `\uXXXX` -/
def unicodeEscape (c : UInt16) : JsString :=
  [92, 117, hexDigit (c.toNat / 4096), hexDigit (c.toNat / 256 % 16), hexDigit (c.toNat / 16 % 16),
    hexDigit (c.toNat % 16)]

/-- What is written for one code point of a string. -/
def escape : JsString → JsString
  | [8] => [92, 98]
  | [9] => [92, 116]
  | [10] => [92, 110]
  | [12] => [92, 102]
  | [13] => [92, 114]
  | [34] => [92, 34]
  | [92] => [92, 92]
  | [c] => if c < 32 || isHighSurrogate c || isLowSurrogate c then unicodeEscape c else [c]
  | p => p

def quote (s : JsString) : JsString := 34 :: ((codePoints s).flatMap escape ++ [34])

/-- The digits of a number, without the zeros at its end. -/
def shortest (n : Nat) : JsString := ((decimal n).reverse.dropWhile (· == 48)).reverse

/-- `String(x)` of `mantissa · 10 ^ exponent`, the shortest digits of the number. -/
def numberText (mantissa exponent : Int) : JsString :=
  let digits := shortest mantissa.natAbs
  let point : Int := (decimal mantissa.natAbs).length + exponent
  let scale := (if 1 ≤ point then 43 else 45) :: decimal (point - 1).natAbs
  let text :=
    if digits.length ≤ point ∧ point ≤ 21 then digits ++ List.replicate (point.toNat - digits.length) 48
    else if 0 < point ∧ point ≤ 21 then digits.take point.toNat ++ 46 :: digits.drop point.toNat
    else if -6 < point ∧ point ≤ 0 then 48 :: 46 :: (List.replicate (-point).toNat 48 ++ digits)
    else if digits.length = 1 then digits ++ 101 :: scale
    else digits.take 1 ++ 46 :: (digits.drop 1 ++ 101 :: scale)
  if mantissa = 0 then [48] else if mantissa < 0 then 45 :: text else text

mutual

/-- `JSON.stringify(v)` -/
def stringify : Json → JsString
  | .null => js "null"
  | .bool true => js "true"
  | .bool false => js "false"
  | .num m e => numberText m e
  | .str s => quote s
  | .arr [] => [91, 93]
  | .arr (v :: l) => 91 :: (v.stringify ++ (stringifyItems l ++ [93]))
  | .obj [] => [123, 125]
  | .obj ((k, v) :: ms) => 123 :: (quote k ++ (58 :: v.stringify ++ (stringifyMembers ms ++ [125])))

def stringifyItems : List Json → JsString
  | [] => []
  | v :: l => 44 :: (v.stringify ++ stringifyItems l)

def stringifyMembers : List (JsString × Json) → JsString
  | [] => []
  | (k, v) :: ms => 44 :: (quote k ++ (58 :: v.stringify ++ stringifyMembers ms))

end

/-! ## What is written is well-formed -/

theorem WellFormed.cons {c : UInt16} {s : JsString} (hc : c.toNat < 128) (hs : WellFormed s) : WellFormed (c :: s) := by
  have hunit : Ascii [c] := Ascii.cons hc (by simp [Ascii])
  exact (wellFormed_of_ascii hunit).append hs

theorem wellFormed_escape {s p : JsString} (hp : p ∈ codePoints s) : WellFormed (escape p) := by
  have hescape (c : UInt16) : Ascii (unicodeEscape c) := by
    have hc := c.toNat_lt
    intro d hd
    simp only [unicodeEscape, List.mem_cons, List.not_mem_nil, or_false] at hd
    rcases hd with rfl | rfl | rfl | rfl | rfl | rfl
    · decide
    · decide
    · exact hexDigit_lt (by omega)
    · exact hexDigit_lt (by omega)
    · exact hexDigit_lt (by omega)
    · exact hexDigit_lt (by omega)
  unfold escape
  split
  · decide
  · decide
  · decide
  · decide
  · decide
  · decide
  · decide
  · split
    · exact wellFormed_of_ascii (hescape _)
    · rename_i c _ _ _ _ _ _ _ hplain
      simp only [Bool.or_eq_true, not_or, Bool.not_eq_true] at hplain
      exact Utf8.wellFormed_unit hplain.1.2 hplain.2
  · rename_i hunit
    rcases Utf8.mem_codePoints hp with ⟨c, rfl⟩ | ⟨c, d, rfl, hpair⟩
    · exact absurd rfl (hunit c)
    · exact Utf8.wellFormed_pair hpair

theorem wellFormed_quote (s : JsString) : WellFormed (quote s) := by
  refine WellFormed.cons (by decide) (WellFormed.append ?_ (by decide))
  have hall : ∀ p ∈ codePoints s, WellFormed (escape p) := fun p hp => wellFormed_escape hp
  generalize codePoints s = l at hall
  induction l with
  | nil => rfl
  | cons p l ih =>
    rw [List.flatMap_cons]
    exact (hall p (by simp)).append (ih fun q hq => hall q (by simp [hq]))

theorem ascii_shortest (n : Nat) : Ascii (shortest n) := by
  refine (ascii_decimal n).of_subset fun c hc => ?_
  have hc := (List.dropWhile_sublist _).subset (List.mem_reverse.mp hc)
  exact List.mem_reverse.mp hc

theorem ascii_numberText (m e : Int) : Ascii (numberText m e) := by
  have hdigits := ascii_shortest m.natAbs
  have htake (n : Nat) : Ascii ((shortest m.natAbs).take n) := hdigits.of_subset fun c hc => List.mem_of_mem_take hc
  have hdrop (n : Nat) : Ascii ((shortest m.natAbs).drop n) := hdigits.of_subset fun c hc => List.mem_of_mem_drop hc
  have hzeros (n : Nat) : Ascii (List.replicate n 48) := by
    intro c hc
    rw [List.eq_of_mem_replicate hc]
    decide
  have hscale (point : Int) : Ascii ((if 1 ≤ point then 43 else 45) :: decimal (point - 1).natAbs) := by
    refine Ascii.cons ?_ (ascii_decimal _)
    split <;> decide
  have hsigned (t : JsString) (ht : Ascii t) : Ascii (if m = 0 then [48] else if m < 0 then 45 :: t else t) := by
    split
    · exact ascii_decimal 0
    · split
      · exact Ascii.cons (by decide) ht
      · exact ht
  apply hsigned
  split
  · exact hdigits.append (hzeros _)
  · split
    · exact (htake _).append (Ascii.cons (by decide) (hdrop _))
    · split
      · exact Ascii.cons (by decide) (Ascii.cons (by decide) ((hzeros _).append hdigits))
      · split
        · exact hdigits.append (Ascii.cons (by decide) (hscale _))
        · exact (htake _).append (Ascii.cons (by decide) ((hdrop _).append (Ascii.cons (by decide) (hscale _))))

mutual

theorem wellFormed_stringify : ∀ v : Json, WellFormed v.stringify
  | .null => by decide
  | .bool true => by decide
  | .bool false => by decide
  | .num m e => wellFormed_of_ascii (ascii_numberText m e)
  | .str s => wellFormed_quote s
  | .arr [] => by decide
  | .arr (v :: l) => by
    refine WellFormed.cons (by decide) ((wellFormed_stringify v).append ?_)
    exact (wellFormed_stringifyItems l).append (by decide)
  | .obj [] => by decide
  | .obj ((k, v) :: ms) => by
    refine WellFormed.cons (by decide) ((wellFormed_quote k).append (WellFormed.cons (by decide) ?_))
    exact (wellFormed_stringify v).append ((wellFormed_stringifyMembers ms).append (by decide))

theorem wellFormed_stringifyItems : ∀ l : List Json, WellFormed (stringifyItems l)
  | [] => by decide
  | v :: l => WellFormed.cons (by decide) ((wellFormed_stringify v).append (wellFormed_stringifyItems l))

theorem wellFormed_stringifyMembers : ∀ ms : List (JsString × Json), WellFormed (stringifyMembers ms)
  | [] => by decide
  | (k, v) :: ms => by
    refine WellFormed.cons (by decide) ((wellFormed_quote k).append (WellFormed.cons (by decide) ?_))
    exact (wellFormed_stringify v).append (wellFormed_stringifyMembers ms)

end

end Json

end NotifyHub
