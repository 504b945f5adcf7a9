/-
  NotifyHub.Lib.Json — parsed JSON values, as the program sees the `unknown` results
  of `JSON.parse` and of SDK calls. An object lists its members in order, no name
  twice; a number is `mantissa · 10 ^ exponent`. `undefined` is `none`.
-/

import NotifyHub.Lib.Text

namespace NotifyHub

inductive Json where
  | null
  | bool (b : Bool)
  | num (mantissa exponent : Int)
  | str (s : JsString)
  | arr (items : List Json)
  | obj (members : List (JsString × Json))

namespace Json

/-- `isRecord`: an object that is neither null nor an array, as its members. -/
def record? : Json → Option (List (JsString × Json))
  | obj ms => some ms
  | _ => none

def str? : Json → Option JsString
  | str s => some s
  | _ => none

def arr? : Json → Option (List Json)
  | arr xs => some xs
  | _ => none

def bool? : Json → Option Bool
  | bool b => some b
  | _ => none

/-- An array of strings. -/
def strings? (v : Json) : Option (List JsString) := do
  let items ← v.arr?
  if items.all fun item => item.str?.isSome then some (items.filterMap str?) else none

/-- Reading back what was written, item by item. -/
theorem filterMap_read {α β : Type} {write : α → β} {read : β → Option α} (h : ∀ x, read (write x) = some x)
    (l : List α) :
    (l.map write).filterMap read = l := by
  rw [List.filterMap_map, (funext h : read ∘ write = some), List.filterMap_some]

theorem strings_eq_some {v : Json} {l : List JsString} : v.strings? = some l ↔ v = .arr (l.map str) := by
  constructor
  · intro h
    cases v with
    | arr items =>
      simp only [strings?, arr?, Option.bind_eq_bind, Option.bind_some] at h
      split at h
      · rename_i hall
        cases h
        congr 1
        induction items with
        | nil => rfl
        | cons x items ih =>
          rw [List.all_cons, Bool.and_eq_true] at hall
          cases x with
          | str s =>
            change str s :: items = str s :: (items.filterMap str?).map str
            rw [← ih hall.2]
          | _ => cases hall.1
      · cases h
    | _ => cases h
  · intro h
    subst h
    have hall : ((l.map str).all fun item => item.str?.isSome) = true := by simp [str?]
    have hread : (l.map str).filterMap str? = l := by
      apply filterMap_read
      intro s; rfl
    simp only [strings?, arr?, Option.bind_eq_bind, Option.bind_some, hall, if_true, hread]

end Json

/-- `members.name`. -/
def member (ms : List (JsString × Json)) (name : String) : Option Json :=
  (ms.find? (·.1 = js name)).map (·.2)

/-- `x != null` of a member: present and not null. -/
def nonNullish : Option Json → Bool
  | none | some .null => false
  | some _ => true

/-- Not `undefined`, `null`, `false`, `0` or `""`. -/
def truthy : Option Json → Bool
  | none | some .null | some (.bool false) => false
  | some (.num mantissa _) => mantissa ≠ 0
  | some (.str s) => s ≠ []
  | some _ => true

/-- `asNonEmptyString`. -/
def asNonEmptyString (v : Option Json) : Option JsString :=
  match v with
  | some (.str s) => if s.length > 0 then some s else none
  | _ => none

theorem asNonEmptyString_eq_some {v : Option Json} {s : JsString} :
    asNonEmptyString v = some s ↔ v = some (.str s) ∧ s ≠ [] := by
  constructor
  · intro h
    unfold asNonEmptyString at h
    split at h
    · rename_i s
      split at h
      · cases h
        exact ⟨rfl, List.length_pos_iff.mp ‹_›⟩
      · cases h
    · cases h
  · rintro ⟨rfl, hs⟩
    exact if_pos (List.length_pos_iff.mpr hs)

end NotifyHub
