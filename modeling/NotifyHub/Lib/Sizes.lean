/-
  NotifyHub.Lib.Sizes — how many bytes a text takes, written as it is and inside a JSON
  string.

  A text is cut between code points. What a value cut down (`Json.Cut`) is written with is
  no longer, also when the text of it is written once more, as a string of another value
  (`Cut.escaped_le`).
-/

import NotifyHub.Lib.Stringify

namespace NotifyHub

open Utf8 (WellFormed)

/-- `Buffer.byteLength(s, "utf8")` -/
def utf8Bytes (s : JsString) : Nat := (Utf8.encode s).length

/-! ## Texts put together -/

theorem codePoints_append {s : JsString} (hs : WellFormed s) (t : JsString) :
    codePoints (s ++ t) = codePoints s ++ codePoints t := by
  have hall : ∀ (ns : List Nat), (∀ n ∈ ns, Utf8.Scalar n) → ∀ t,
      codePoints (ns.flatMap Utf8.utf16 ++ t) = ns.map Utf8.utf16 ++ codePoints t := by
    intro ns hns t
    induction ns with
    | nil => rfl
    | cons n ns ih =>
      rw [List.flatMap_cons, List.append_assoc, Utf8.codePoints_utf16 (hns n (by simp)),
        ih fun m hm => hns m (by simp [hm])]
      rfl
  have hscalar := Utf8.scalar_scalars s
  have hone := hall _ hscalar []
  have htwo := hall _ hscalar t
  rw [show (Utf8.scalars s).flatMap Utf8.utf16 = s from hs] at hone htwo
  rw [htwo]
  simpa [codePoints] using hone.symm

theorem utf8Bytes_append {s : JsString} (hs : WellFormed s) (t : JsString) :
    utf8Bytes (s ++ t) = utf8Bytes s + utf8Bytes t := by
  simp [utf8Bytes, Utf8.encode, Utf8.scalars, codePoints_append hs]

theorem utf8Bytes_flatMap {f : JsString → JsString} {l : List JsString} (h : ∀ p ∈ l, WellFormed (f p)) :
    utf8Bytes (l.flatMap f) = (l.map fun p => utf8Bytes (f p)).sum := by
  induction l with
  | nil => rfl
  | cons p l ih =>
    rw [List.flatMap_cons, utf8Bytes_append (h p (by simp)), ih fun q hq => h q (by simp [hq])]
    simp

/-- A text and one that it begins with, both read by code points. -/
def Begins (s t : JsString) : Prop := codePoints s <+: codePoints t

theorem Begins.refl (s : JsString) : Begins s s := List.prefix_refl _

/-- Two cuts of one text. -/
theorem begins_take {s : JsString} {m n : Nat} (h : m ≤ n) :
    Begins ((codePoints s).take m).flatten ((codePoints s).take n).flatten := by
  rw [Begins, codePoints_take, codePoints_take]
  exact List.take_prefix_take_left h

theorem take_begins (s : JsString) (n : Nat) : Begins ((codePoints s).take n).flatten s := by
  rw [Begins, codePoints_take]
  exact List.take_prefix n _

theorem codePoints_eq_nil {s : JsString} : codePoints s = [] ↔ s = [] := by
  constructor
  · intro h
    rw [← codePoints_flatten s, h]
    rfl
  · intro h
    rw [h]
    rfl

/-- What is put behind a text that is not empty leaves its first code point alone, if it begins with no second half. -/
theorem first_append {s t : JsString} (hs : s ≠ []) (ht : ∀ c, t.head? = some c → isLowSurrogate c = false) :
    (codePoints (s ++ t)).take 1 = (codePoints s).take 1 := by
  cases s with
  | nil => exact absurd rfl hs
  | cons c s =>
    cases s with
    | nil =>
      cases t with
      | nil => rfl
      | cons d t =>
        have hd := ht d rfl
        simp [codePoints, hd]
    | cons d s =>
      simp only [List.cons_append, codePoints]
      split <;> rfl

theorem first_of_begins {s t : JsString} (hs : s ≠ []) (h : Begins s t) :
    (codePoints s).take 1 = (codePoints t).take 1 := by
  obtain ⟨r, hr⟩ := h
  cases hp : codePoints s with
  | nil => exact absurd (codePoints_eq_nil.mp hp) hs
  | cons p l =>
    rw [← hr, hp]
    rfl

/-! ## Quoted texts -/

namespace Json

/-- The bytes of a text inside quotes. -/
def escaped (s : JsString) : Nat := ((codePoints s).map fun p => utf8Bytes (escape p)).sum

theorem escaped_append {s : JsString} (hs : WellFormed s) (t : JsString) :
    escaped (s ++ t) = escaped s + escaped t := by
  simp [escaped, codePoints_append hs]

theorem escaped_cons {c : UInt16} (hc : c.toNat < 128) (s : JsString) : escaped (c :: s) = escaped [c] + escaped s := by
  have hunit : WellFormed [c] := Utf8.wellFormed_of_ascii (Ascii.cons hc (by simp [Ascii]))
  exact escaped_append hunit s

theorem utf8Bytes_cons {c : UInt16} (hc : c.toNat < 128) (s : JsString) :
    utf8Bytes (c :: s) = utf8Bytes [c] + utf8Bytes s := by
  have hunit : WellFormed [c] := Utf8.wellFormed_of_ascii (Ascii.cons hc (by simp [Ascii]))
  exact utf8Bytes_append hunit s

theorem escaped_begins {s t : JsString} (h : Begins s t) : escaped s ≤ escaped t := by
  obtain ⟨r, hr⟩ := h
  simp only [escaped, ← hr, List.map_append, List.sum_append]
  omega

theorem wellFormed_flatMap_escape {s : JsString} {l : List JsString} (h : ∀ p ∈ l, p ∈ codePoints s) :
    WellFormed (l.flatMap escape) := by
  induction l with
  | nil => rfl
  | cons p l ih =>
    rw [List.flatMap_cons]
    exact (wellFormed_escape (h p (by simp))).append (ih fun q hq => h q (by simp [hq]))

theorem utf8Bytes_quote (s : JsString) : utf8Bytes (quote s) = escaped s + 2 := by
  have hbody := utf8Bytes_flatMap (f := escape) fun p (hp : p ∈ codePoints s) => wellFormed_escape hp
  rw [quote, utf8Bytes_cons (by decide), utf8Bytes_append (wellFormed_flatMap_escape fun _ h => h), hbody,
    show utf8Bytes [34] = 1 from rfl, escaped]
  omega

/-- A text that is quoted, and quoted again. -/
theorem escaped_quote (s : JsString) :
    escaped (quote s) = ((codePoints s).map fun p => escaped (escape p)).sum + 2 * escaped [34] := by
  have hbody : ∀ l : List JsString, (∀ p ∈ l, p ∈ codePoints s) →
      escaped (l.flatMap escape) = (l.map fun p => escaped (escape p)).sum := by
    intro l hl
    induction l with
    | nil => rfl
    | cons p l ih =>
      rw [List.flatMap_cons, escaped_append (wellFormed_escape (hl p (by simp))), ih fun q hq => hl q (by simp [hq])]
      simp
  rw [quote, escaped_cons (by decide), escaped_append (wellFormed_flatMap_escape fun _ h => h), hbody _ fun _ h => h]
  omega

theorem escaped_quote_begins {s t : JsString} (h : Begins s t) : escaped (quote s) ≤ escaped (quote t) := by
  obtain ⟨r, hr⟩ := h
  rw [escaped_quote, escaped_quote, ← hr, List.map_append, List.sum_append]
  omega

/-! ## Values cut down -/

mutual

/-- The first value is the second with strings cut short and members left out, none of them an object's first. -/
inductive Cut : Json → Json → Prop where
  | refl (v : Json) : Cut v v
  | str {s t : JsString} (h : Begins s t) : Cut (.str s) (.str t)
  | arr {l l' : List Json} (h : CutItems l l') : Cut (.arr l) (.arr l')
  | obj (k : JsString) {v v' : Json} {ms ms' : List (JsString × Json)} (h : Cut v v') (hs : CutMembers ms ms') :
    Cut (.obj ((k, v) :: ms)) (.obj ((k, v') :: ms'))

inductive CutItems : List Json → List Json → Prop where
  | nil : CutItems [] []
  | cons {v v' : Json} {l l' : List Json} (h : Cut v v') (hs : CutItems l l') : CutItems (v :: l) (v' :: l')

inductive CutMembers : List (JsString × Json) → List (JsString × Json) → Prop where
  | nil : CutMembers [] []
  | cons (k : JsString) {v v' : Json} {ms ms' : List (JsString × Json)} (h : Cut v v') (hs : CutMembers ms ms') :
    CutMembers ((k, v) :: ms) ((k, v') :: ms')
  | drop (m : JsString × Json) {ms ms' : List (JsString × Json)} (hs : CutMembers ms ms') : CutMembers ms (m :: ms')

end

theorem CutMembers.refl (ms : List (JsString × Json)) : CutMembers ms ms := by
  induction ms with
  | nil => exact .nil
  | cons m ms ih => exact .cons m.1 (.refl m.2) ih

theorem CutItems.map {α : Type} {f g : α → Json} {l : List α} (h : ∀ a ∈ l, Cut (f a) (g a)) :
    CutItems (l.map f) (l.map g) := by
  induction l with
  | nil => exact .nil
  | cons a l ih => exact .cons (h a (by simp)) (ih fun b hb => h b (by simp [hb]))

theorem escaped_items_cons (v : Json) (l : List Json) :
    escaped (stringifyItems (v :: l)) = escaped [44] + (escaped v.stringify + escaped (stringifyItems l)) := by
  rw [stringifyItems, escaped_cons (by decide), escaped_append (wellFormed_stringify v)]

theorem escaped_members_cons (k : JsString) (v : Json) (ms : List (JsString × Json)) :
    escaped (stringifyMembers ((k, v) :: ms)) =
      escaped [44] + (escaped (quote k) + (escaped [58] + (escaped v.stringify + escaped (stringifyMembers ms)))) := by
  rw [stringifyMembers, escaped_cons (by decide) (quote k ++ _), escaped_append (wellFormed_quote k), List.cons_append,
    escaped_cons (by decide) (v.stringify ++ _), escaped_append (wellFormed_stringify v)]

theorem escaped_arr_cons (v : Json) (l : List Json) :
    escaped (Json.arr (v :: l)).stringify = escaped [91] +
      (escaped v.stringify + (escaped (stringifyItems l) + escaped [93])) := by
  rw [stringify, escaped_cons (by decide), escaped_append (wellFormed_stringify v),
    escaped_append (wellFormed_stringifyItems l)]

theorem escaped_obj_cons (k : JsString) (v : Json) (ms : List (JsString × Json)) :
    escaped (Json.obj ((k, v) :: ms)).stringify = escaped [123] +
      (escaped (quote k) + (escaped [58] + (escaped v.stringify +
      (escaped (stringifyMembers ms) + escaped [125])))) := by
  rw [stringify, escaped_cons (by decide) (quote k ++ _), escaped_append (wellFormed_quote k), List.cons_append,
    escaped_cons (by decide) (v.stringify ++ _), escaped_append (wellFormed_stringify v),
    escaped_append (wellFormed_stringifyMembers ms)]

mutual

theorem Cut.escaped_le : ∀ {v v' : Json}, Cut v v' → escaped v.stringify ≤ escaped v'.stringify
  | _, _, .refl v => Nat.le_refl _
  | _, _, .str h => escaped_quote_begins h
  | _, _, .arr .nil => Nat.le_refl _
  | _, _, .arr (.cons h hs) => by
    have hone := h.escaped_le
    have hrest := hs.escaped_le
    rw [escaped_arr_cons, escaped_arr_cons]
    omega
  | _, _, .obj k h hs => by
    have hone := h.escaped_le
    have hrest := hs.escaped_le
    rw [escaped_obj_cons, escaped_obj_cons]
    omega

theorem CutItems.escaped_le : ∀ {l l' : List Json}, CutItems l l' →
    escaped (stringifyItems l) ≤ escaped (stringifyItems l')
  | _, _, .nil => Nat.le_refl _
  | _, _, .cons h hs => by
    have hone := h.escaped_le
    have hrest := hs.escaped_le
    rw [escaped_items_cons, escaped_items_cons]
    omega

theorem CutMembers.escaped_le : ∀ {ms ms' : List (JsString × Json)}, CutMembers ms ms' →
    escaped (stringifyMembers ms) ≤ escaped (stringifyMembers ms')
  | _, _, .nil => Nat.le_refl _
  | _, _, .cons k h hs => by
    have hone := h.escaped_le
    have hrest := hs.escaped_le
    rw [escaped_members_cons, escaped_members_cons]
    omega
  | _, _, .drop m hs => by
    have hrest := hs.escaped_le
    rw [escaped_members_cons]
    omega

end

end Json

end NotifyHub
