/-
  NotifyHub.Lib.Percent — texts in the path of a URL: `encodeURIComponent`, which writes the
  UTF-8 bytes of a text, those of a few characters as they are and the others as `%` and two
  hexadecimal digits, and the segments of a path, with the dots that `new URL` resolves.

  What was encoded is decoded (`decodeComponent_encode`). An encoded text holds no `/`, and
  is a segment of dots only if it was one, so a path made of encoded texts is read segment
  by segment (`route_pathname`).
-/

import NotifyHub.Lib.Utf8
import Mathlib.Data.List.Forall2

namespace NotifyHub.Percent

open Base64 (Bytes)

/-- The characters that stay as they are: letters, digits and `-_.!~*'()`. -/
def isPlain (n : Nat) : Bool :=
  (65 ≤ n && n ≤ 90) || (97 ≤ n && n ≤ 122) || (48 ≤ n && n ≤ 57) ||
    n == 45 || n == 95 || n == 46 || n == 33 || n == 126 || n == 42 || (39 ≤ n && n ≤ 41)

def upperHex (n : Nat) : UInt16 := UInt16.ofNat (if n < 10 then 48 + n else 55 + n)

def hexDigitValue (c : UInt16) : Option Nat :=
  let n := c.toNat
  if 48 ≤ n ∧ n ≤ 57 then some (n - 48)
  else if 65 ≤ n ∧ n ≤ 70 then some (n - 55)
  else if 97 ≤ n ∧ n ≤ 102 then some (n - 87)
  else none

def encodeByte (b : UInt8) : JsString :=
  if isPlain b.toNat then [UInt16.ofNat b.toNat] else [37, upperHex (b.toNat / 16), upperHex (b.toNat % 16)]

def encodeBytes (l : Bytes) : JsString := l.flatMap encodeByte

/-- `encodeURIComponent(s)`; none where it throws, on a lone surrogate. -/
def encodeURIComponent (s : JsString) : Option JsString :=
  if Utf8.WellFormed s then some (encodeBytes (Utf8.encode s)) else none

/-- The bytes of a component; what is no `%` with two digits stands for itself. -/
def decodeBytes : JsString → Bytes
  | [] => []
  | c :: s =>
    if c = 37 then
      match s with
      | a :: b :: s =>
        match hexDigitValue a, hexDigitValue b with
        | some x, some y => UInt8.ofNat (x * 16 + y) :: decodeBytes s
        | _, _ => UInt8.ofNat c.toNat :: decodeBytes (a :: b :: s)
      | s => UInt8.ofNat c.toNat :: decodeBytes s
    else UInt8.ofNat c.toNat :: decodeBytes s

def decodeComponent (s : JsString) : JsString := Utf8.decode (decodeBytes s)

/-! ## Components -/

theorem hexDigitValue_upperHex {n : Nat} (h : n < 16) : hexDigitValue (upperHex n) = some n := by
  have hall : ∀ n : Fin 16, hexDigitValue (upperHex n) = some n.val := by decide +kernel
  exact hall ⟨n, h⟩

theorem upperHex_bounds {n : Nat} (h : n < 16) : isPlain (upperHex n).toNat = true := by
  have hall : ∀ n : Fin 16, isPlain (upperHex n).toNat = true := by decide +kernel
  exact hall ⟨n, h⟩

theorem unit_of_byte (b : UInt8) : (UInt16.ofNat b.toNat).toNat = b.toNat := by
  have := b.toNat_lt
  rw [UInt16.toNat_ofNat']
  omega

theorem decodeBytes_cons {c : UInt16} (h : c ≠ 37) (s : JsString) :
    decodeBytes (c :: s) = UInt8.ofNat c.toNat :: decodeBytes s := by
  match s with
  | [] => simp [decodeBytes]
  | [_] => simp [decodeBytes, h]
  | _ :: _ :: _ => rw [decodeBytes, if_neg h]

theorem decodeBytes_encodeByte (b : UInt8) (s : JsString) : decodeBytes (encodeByte b ++ s) = b :: decodeBytes s := by
  have hb := b.toNat_lt
  unfold encodeByte
  split
  · rename_i hplain
    have hne : UInt16.ofNat b.toNat ≠ 37 := by
      intro h
      have := congrArg UInt16.toNat h
      rw [unit_of_byte] at this
      rw [this] at hplain
      exact absurd hplain (by decide)
    rw [List.singleton_append, decodeBytes_cons hne, unit_of_byte, UInt8.ofNat_toNat]
  · simp only [List.cons_append, List.nil_append, decodeBytes, if_true]
    rw [hexDigitValue_upperHex (by omega), hexDigitValue_upperHex (by omega)]
    have hsum : b.toNat / 16 * 16 + b.toNat % 16 = b.toNat := by omega
    simp only [hsum, UInt8.ofNat_toNat]

theorem decodeBytes_encodeBytes (l : Bytes) : decodeBytes (encodeBytes l) = l := by
  induction l with
  | nil => rfl
  | cons b l ih =>
    rw [encodeBytes, List.flatMap_cons, decodeBytes_encodeByte]
    exact congrArg (b :: ·) ih

theorem encode_eq_some {s e : JsString} : encodeURIComponent s = some e ↔ Utf8.WellFormed s ∧
    encodeBytes (Utf8.encode s) = e := by
  simp [encodeURIComponent]

/-- What was encoded is decoded. -/
theorem decodeComponent_encode {s e : JsString} (h : encodeURIComponent s = some e) : decodeComponent e = s := by
  obtain ⟨hs, rfl⟩ := encode_eq_some.mp h
  rw [decodeComponent, decodeBytes_encodeBytes, Utf8.decode_encode hs]

theorem slash_not_mem_encode {s e : JsString} (h : encodeURIComponent s = some e) : 47 ∉ e := by
  obtain ⟨-, rfl⟩ := encode_eq_some.mp h
  intro hmem
  obtain ⟨b, -, hb⟩ := List.mem_flatMap.mp hmem
  have hlt := b.toNat_lt
  have hhex : ∀ n < 16, (47 : UInt16) ≠ upperHex n := by
    intro n hn h
    have := upperHex_bounds hn
    rw [← h] at this
    exact absurd this (by decide)
  unfold encodeByte at hb
  split at hb
  · rename_i hplain
    have := congrArg UInt16.toNat (List.mem_singleton.mp hb)
    rw [unit_of_byte] at this
    rw [← this] at hplain
    exact absurd hplain (by decide)
  · simp only [List.mem_cons, List.not_mem_nil, or_false] at hb
    rcases hb with hb | hb | hb
    · exact absurd hb (by decide)
    · exact hhex _ (by omega) hb
    · exact hhex _ (by omega) hb

/-! ## Paths -/

/-- A segment that `new URL` drops, in any of its spellings. -/
def isDot (s : JsString) : Bool := [js ".", js "%2e", js "%2E"].contains s

/-- A segment with which it drops the one before, too. -/
def isDoubleDot (s : JsString) : Bool :=
  [js "..", js ".%2e", js ".%2E", js "%2e.", js "%2E.", js "%2e%2e", js "%2e%2E", js "%2E%2e", js "%2E%2E"].contains s

/-- The path of `new URL`, segment by segment; `kept` are those before, the last one first.
    A dot at the end leaves an empty segment. -/
def resolve : List JsString → List JsString → List JsString
  | kept, [] => kept.reverse
  | kept, s :: rest =>
    if isDoubleDot s then resolve (if rest = [] then [] :: kept.tail else kept.tail) rest
    else if isDot s then resolve (if rest = [] then [] :: kept else kept) rest
    else resolve (s :: kept) rest

def slash : UInt16 := 47

/-- The path of segments, `/` before each. -/
def pathOf (segments : List JsString) : JsString := segments.flatMap (slash :: ·)

/-- `new URL(path, base).pathname`, of a path that begins with `/` and has no other character
    that is read there. -/
def pathname (path : JsString) : JsString := pathOf (resolve [] (path.tail.splitOn slash))

/-- What a server reads of a path: the texts of its segments. -/
def route (path : JsString) : List JsString := (path.tail.splitOn slash).map decodeComponent

theorem pathOf_append (l m : List JsString) : pathOf (l ++ m) = pathOf l ++ pathOf m := List.flatMap_append

theorem pathOf_eq {segments : List JsString} (h : segments ≠ []) :
    pathOf segments = slash :: [slash].intercalate segments := by
  induction segments with
  | nil => exact absurd rfl h
  | cons s rest ih =>
    rw [pathOf, List.flatMap_cons]
    cases rest with
    | nil => rw [List.intercalate_singleton, List.flatMap_nil, List.append_nil]
    | cons t rest =>
      have := ih (by simp)
      rw [pathOf] at this
      rw [this, List.intercalate_cons_cons]
      simp

theorem splitOn_pathOf {segments : List JsString} (hne : segments ≠ []) (h : ∀ s ∈ segments, slash ∉ s) :
    (pathOf segments).tail.splitOn slash = segments := by
  rw [pathOf_eq hne, List.tail_cons]
  exact List.splitOn_intercalate slash h hne

theorem resolve_plain {segments : List JsString} (h : ∀ s ∈ segments, isDot s = false ∧ isDoubleDot s = false)
    (kept : List JsString) :
    resolve kept segments = kept.reverse ++ segments := by
  induction segments generalizing kept with
  | nil => rw [resolve, List.append_nil]
  | cons s rest ih =>
    obtain ⟨hdot, hdots⟩ := h s (by simp)
    rw [resolve, hdot, hdots, if_neg Bool.false_ne_true, if_neg Bool.false_ne_true,
      ih fun t ht => h t (List.mem_cons_of_mem _ ht)]
    simp

/-- A segment as `encodeURIComponent` writes it. -/
def Encoded (s e : JsString) : Prop := encodeURIComponent s = some e

theorem Encoded.not_dots {s e : JsString} (h : Encoded s e) (hdot : s ≠ js ".") (hdots : s ≠ js "..") :
    isDot e = false ∧ isDoubleDot e = false := by
  have hs := decodeComponent_encode h
  have hone : ∀ t ∈ [js ".", js "%2e", js "%2E"], decodeComponent t = js "." := by decide +kernel
  have htwo : ∀ t ∈ [js "..", js ".%2e", js ".%2E", js "%2e.", js "%2E.", js "%2e%2e", js "%2e%2E",
    js "%2E%2e", js "%2E%2E"],
      decodeComponent t = js ".." := by decide +kernel
  constructor
  · by_contra hc
    rw [Bool.not_eq_false, isDot, List.contains_iff_mem] at hc
    exact hdot (hs ▸ hone e hc)
  · by_contra hc
    rw [Bool.not_eq_false, isDoubleDot, List.contains_iff_mem] at hc
    exact hdots (hs ▸ htwo e hc)

/-- A path of encoded texts, none of them dots, is routed by these texts. -/
theorem route_pathname {texts segments : List JsString} (hne : texts ≠ [])
    (hdots : ∀ s ∈ texts, s ≠ js "." ∧ s ≠ js "..")
    (h : List.Forall₂ Encoded texts segments) : route (pathname (pathOf segments)) = texts := by
  have hall : (∀ e ∈ segments, slash ∉ e ∧ isDot e = false ∧ isDoubleDot e = false) ∧
    segments.map decodeComponent = texts := by
    clear hne
    induction h with
    | nil => exact ⟨nofun, rfl⟩
    | cons hs _ ih =>
      obtain ⟨hall, hmap⟩ := ih fun t ht => hdots t (List.mem_cons_of_mem _ ht)
      obtain ⟨hdot, hdouble⟩ := hdots _ List.mem_cons_self
      refine ⟨fun e he => ?_, by rw [List.map_cons, hmap, decodeComponent_encode hs]⟩
      rcases List.mem_cons.mp he with rfl | he
      · exact ⟨slash_not_mem_encode hs, hs.not_dots hdot hdouble⟩
      · exact hall e he
  have hsegments : segments ≠ [] := by
    rintro rfl
    exact hne hall.2.symm
  have hsplit := splitOn_pathOf hsegments fun e he => (hall.1 e he).1
  rw [route, pathname, hsplit, resolve_plain fun e he => (hall.1 e he).2, List.reverse_nil,
    List.nil_append, hsplit, hall.2]

end NotifyHub.Percent
