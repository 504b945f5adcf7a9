/-
  NotifyHub.Lib.Schema — the part of JSON Schema the contracts are written in, with a
  validator that says what ajv says of a parsed value.

  Lengths of strings count code points. `additionalProperties` is false of an `object`;
  a `dict` has no properties of its own and takes any name. The format `uuid` is ajv's:
  an optional `urn:uuid:` before the UUID, in any case; `uri` is RFC 3986's; `date-time`
  is a parameter.
-/

import Mathlib.Data.List.Basic
import NotifyHub.Lib.Json
import NotifyHub.Lib.Uri

namespace NotifyHub

/-- `c` as the `i` flag compares it. -/
def lower (c : UInt16) : UInt16 := if 65 ≤ c ∧ c ≤ 90 then c + 32 else c

/-- `/^(?:urn:uuid:)?[0-9a-f]{8}-(?:[0-9a-f]{4}-){3}[0-9a-f]{12}$/i` -/
def uuidFormat (s : JsString) : Bool :=
  isUuid s || ((s.take 9).map lower == js "urn:uuid:" && isUuid (s.drop 9))

inductive Format where
  | uuid
  | uri
  | dateTime
  deriving DecidableEq

/-- The integer a number stands for, if it is one. -/
def Json.int? : Json → Option Int
  | .num m (.ofNat e) => some (m * 10 ^ e)
  | .num m (.negSucc e) => if m % 10 ^ (e + 1) = 0 then some (m / 10 ^ (e + 1)) else none
  | _ => none

inductive Schema where
  | any
  /-- `const` and `enum`, of strings. -/
  | enum (values : List String)
  | string (minLength : Nat) (maxLength : Option Nat) (format : Option Format)
  | boolean
  | integer (minimum maximum : Option Int)
  | array (minItems : Nat) (maxItems : Option Nat) (items : Schema)
  | object (required : List String) (properties : List (String × Schema))
  | dict (values : Schema)
  | oneOf (schemas : List Schema)

/-- `b ≤ n`, when there is a bound. -/
def within {α : Type} [LE α] [DecidableLE α] (x : α) (bound : Option α) : Bool := bound.all fun b => x ≤ b

variable (dateTime : JsString → Bool)

def Format.holds (s : JsString) : Format → Bool
  | .uuid => uuidFormat s
  | .uri => Uri.isUri s
  | .dateTime => dateTime s

namespace Schema

mutual

def validate : Schema → Json → Bool
  | .any, _ => true
  | .enum values, .str s => values.any (js · == s)
  | .string minLength maxLength format, .str s =>
    minLength ≤ (codePoints s).length && within (codePoints s).length maxLength && format.all (Format.holds dateTime s)
  | .boolean, .bool _ => true
  | .integer minimum maximum, v =>
    match v.int? with
    | some n => minimum.all (· ≤ n) && within n maximum
    | none => false
  | .array minItems maxItems items, .arr l =>
    minItems ≤ l.length && within l.length maxItems && l.all fun v => items.validate v
  | .object required properties, .obj ms =>
    required.all (fun name => (member ms name).isSome) && ms.all fun m => validateNamed properties m.1 m.2
  | .dict values, .obj ms => ms.all fun m => values.validate m.2
  | .oneOf schemas, v => countValid schemas v == 1
  | _, _ => false

/-- The value of a member, under the schema of its name. -/
def validateNamed : List (String × Schema) → JsString → Json → Bool
  | [], _, _ => false
  | (name, schema) :: properties, k, v =>
    if k = js name then schema.validate v else validateNamed properties k v

def countValid : List Schema → Json → Nat
  | [], _ => 0
  | schema :: schemas, v => (if schema.validate v then 1 else 0) + countValid schemas v

end

end Schema

/-! ## Lengths -/

theorem codePoints_length_le (s : JsString) : (codePoints s).length ≤ s.length := by
  induction s using codePoints.induct with
  | case1 => simp [codePoints]
  | case2 c => simp [codePoints]
  | case3 c d s h ih => simp only [codePoints, h, if_true, List.length_cons]; omega
  | case4 c d s h ih =>
    simp only [codePoints, h, Bool.false_eq_true, if_false, List.length_cons] at ih ⊢
    omega

@[simp] theorem codePoints_pos (s : JsString) : 0 < (codePoints s).length ↔ s ≠ [] := by
  cases s using codePoints.induct with
  | case1 => simp [codePoints]
  | case2 c => simp [codePoints]
  | case3 c d s h => simp [codePoints, h]
  | case4 c d s h => simp [codePoints, h]

@[simp] theorem within_none {α : Type} [LE α] [DecidableLE α] (x : α) : within x none = true := rfl

@[simp] theorem within_some {α : Type} [LE α] [DecidableLE α] (x b : α) : within x (some b) = decide (x ≤ b) := rfl

/-! ## What a schema accepts -/

namespace Schema

variable {dateTime : JsString → Bool}

attribute [local simp] validate validateNamed countValid

@[simp] theorem validate_any (v : Json) : any.validate dateTime v = true := by simp

@[simp] theorem validate_boolean (b : Bool) : boolean.validate dateTime (.bool b) = true := by simp

theorem validate_string {minLength : Nat} {maxLength : Option Nat} {format : Option Format} {v : Json} :
    (string minLength maxLength format).validate dateTime v = true ↔
      ∃ s, v = .str s ∧ minLength ≤ (codePoints s).length ∧ within (codePoints s).length maxLength = true ∧
        format.all (Format.holds dateTime s) = true := by
  cases v with
  | str s => simp [and_assoc]
  | _ => simp

theorem validate_array {minItems : Nat} {maxItems : Option Nat} {items : Schema} {v : Json} :
    (array minItems maxItems items).validate dateTime v = true ↔
      ∃ l, v = .arr l ∧ minItems ≤ l.length ∧ within l.length maxItems = true ∧
        ∀ x ∈ l, items.validate dateTime x = true := by
  cases v with
  | arr l => simp [and_assoc]
  | _ => simp

/-- An array whose items are the encodings of some type. -/
theorem validate_array_of {α : Type} {enc : α → Json} {P : α → Prop} {items : Schema}
    (h : ∀ v, items.validate dateTime v = true ↔ ∃ x, v = enc x ∧ P x) {minItems : Nat} {maxItems : Option Nat}
    {v : Json} :
    (array minItems maxItems items).validate dateTime v = true ↔
      ∃ l : List α, v = .arr (l.map enc) ∧ minItems ≤ l.length ∧ within l.length maxItems = true ∧ ∀ x ∈ l, P x := by
  have decode : ∀ items' : List Json, (∀ x ∈ items', items.validate dateTime x = true) →
      ∃ l : List α, items' = l.map enc ∧ ∀ x ∈ l, P x := by
    intro items'
    induction items' with
    | nil => exact fun _ => ⟨[], rfl, nofun⟩
    | cons v rest ih =>
      intro hall
      obtain ⟨x, hx, hP⟩ := (h v).mp (hall v (by simp))
      obtain ⟨l, hl, hl'⟩ := ih fun y hy => hall y (by simp [hy])
      refine ⟨x :: l, by rw [hx, hl]; rfl, fun y hy => ?_⟩
      rcases List.mem_cons.mp hy with rfl | hy
      · exact hP
      · exact hl' y hy
  rw [validate_array]
  constructor
  · intro ⟨items', hv, hmin, hmax, hall⟩
    obtain ⟨l, rfl, hl⟩ := decode items' hall
    exact ⟨l, hv, by simpa using hmin, by simpa using hmax, hl⟩
  · intro ⟨l, hv, hmin, hmax, hl⟩
    refine ⟨_, hv, by simpa using hmin, by simpa using hmax, fun y hy => ?_⟩
    obtain ⟨x, hx, rfl⟩ := List.mem_map.mp hy
    exact (h _).mpr ⟨x, rfl, hl x hx⟩

/-- An array of encodings. -/
theorem validate_array_map {α : Type} {enc : α → Json} {items : Schema} {minItems : Nat} {maxItems : Option Nat}
    {l : List α} : (array minItems maxItems items).validate dateTime (.arr (l.map enc)) = true ↔
      minItems ≤ l.length ∧ within l.length maxItems = true ∧ ∀ x ∈ l, items.validate dateTime (enc x) = true := by
  simp [and_assoc]

theorem validate_object {required : List String} {properties : List (String × Schema)} {v : Json} :
    (object required properties).validate dateTime v = true ↔
      ∃ ms, v = .obj ms ∧ (∀ name ∈ required, (member ms name).isSome = true) ∧
        ∀ m ∈ ms, validateNamed dateTime properties m.1 m.2 = true := by
  cases v with
  | obj ms => simp
  | _ => simp

theorem validate_enum {values : List String} {v : Json} :
    (enum values).validate dateTime v = true ↔ ∃ t ∈ values, v = .str (js t) := by
  cases v with
  | str s =>
    simp only [validate, List.any_eq_true, beq_iff_eq, Json.str.injEq]
    exact exists_congr fun t => and_congr_right fun _ => eq_comm
  | _ => simp

@[simp] theorem validateNamed_nil (k : JsString) (v : Json) : validateNamed dateTime [] k v = false := by
  simp

theorem validateNamed_cons (name : String) (schema : Schema) (properties : List (String × Schema))
    (k : JsString) (v : Json) :
    validateNamed dateTime ((name, schema) :: properties) k v =
      if k = js name then schema.validate dateTime v else validateNamed dateTime properties k v := by
  simp

/-- The members an object schema asks for are there, and valid. -/
theorem member_of_valid {required : List String} {properties : List (String × Schema)} {ms : List (JsString × Json)}
    (h : (object required properties).validate dateTime (.obj ms) = true) (name : String) (hn : name ∈ required) :
    ∃ v, member ms name = some v ∧ validateNamed dateTime properties (js name) v = true := by
  obtain ⟨ms', hms, hreq, hall⟩ := validate_object.mp h
  cases hms
  obtain ⟨v, hv⟩ := Option.isSome_iff_exists.mp (hreq name hn)
  refine ⟨v, hv, ?_⟩
  obtain ⟨m, hm, hmv⟩ := Option.map_eq_some_iff.mp hv
  have hk := List.find?_some hm
  have := hall m (List.mem_of_find?_eq_some hm)
  rwa [of_decide_eq_true hk, hmv] at this

theorem validateNamed_of_mem {properties : List (String × Schema)} (hn : (properties.map fun p => js p.1).Nodup)
    {name : String} {schema : Schema} (h : (name, schema) ∈ properties) (v : Json) :
    validateNamed dateTime properties (js name) v = schema.validate dateTime v := by
  induction properties with
  | nil => cases h
  | cons p properties ih =>
    obtain ⟨name', schema'⟩ := p
    rw [List.map_cons, List.nodup_cons] at hn
    rw [validateNamed_cons]
    rcases List.mem_cons.mp h with he | h
    · cases he
      rw [if_pos rfl]
    · have hne : js name ≠ js name' := fun he => hn.1 (he ▸ List.mem_map.mpr ⟨(name, schema), h, rfl⟩)
      rw [if_neg hne, ih hn.2 h]

theorem member_isSome {ms : List (JsString × Json)} {name : String} :
    (member ms name).isSome = true ↔ js name ∈ ms.map Prod.fst := by
  simp [member]

/-- An object written with members the schema names is valid when each member is. -/
theorem validate_fields (required : List String) {properties : List (String × Schema)}
    (hn : (properties.map fun p => js p.1).Nodup) (fs : List (String × Schema × Json))
    (hp : ∀ f ∈ fs, (f.1, f.2.1) ∈ properties) (hr : ∀ name ∈ required, name ∈ fs.map fun f => f.1) :
    (object required properties).validate dateTime (.obj (fs.map fun f => (js f.1, f.2.2))) = true ↔
      ∀ f ∈ fs, f.2.1.validate dateTime f.2.2 = true := by
  have hreq : ∀ name ∈ required, (member (fs.map fun f => (js f.1, f.2.2)) name).isSome = true := by
    intro name h
    obtain ⟨f, hf, rfl⟩ := List.mem_map.mp (hr name h)
    exact member_isSome.mpr (List.mem_map.mpr ⟨_, List.mem_map.mpr ⟨f, hf, rfl⟩, rfl⟩)
  rw [validate_object]
  constructor
  · intro ⟨ms, hms, _, hall⟩ f hf
    cases hms
    have := hall _ (List.mem_map.mpr ⟨f, hf, rfl⟩)
    rwa [validateNamed_of_mem hn (hp f hf)] at this
  · intro h
    refine ⟨_, rfl, hreq, fun m hm => ?_⟩
    obtain ⟨f, hf, rfl⟩ := List.mem_map.mp hm
    rw [validateNamed_of_mem hn (hp f hf)]
    exact h f hf

/-! ## One of several -/

theorem countValid_append (l l' : List Schema) (v : Json) :
    countValid dateTime (l ++ l') v = countValid dateTime l v + countValid dateTime l' v := by
  induction l with
  | nil => simp
  | cons schema l ih => simp only [List.cons_append, countValid, ih]; omega

theorem countValid_eq_zero {l : List Schema} {v : Json} :
    countValid dateTime l v = 0 ↔ ∀ schema ∈ l, schema.validate dateTime v = false := by
  induction l with
  | nil => simp
  | cons schema l ih =>
    rw [countValid, Nat.add_eq_zero_iff, ih]
    simp

/-- Where every other alternative refuses a value, `oneOf` says what the one left says. -/
theorem validate_oneOf (l l' : List Schema) {schema : Schema} {v : Json}
    (h : ∀ other ∈ l ++ l', other.validate dateTime v = false) :
    (oneOf (l ++ schema :: l')).validate dateTime v = schema.validate dateTime v := by
  have hl := countValid_eq_zero.mpr fun other ho => h other (List.mem_append_left _ ho)
  have hl' := countValid_eq_zero.mpr fun other ho => h other (List.mem_append_right _ ho)
  rw [validate, countValid_append, countValid, hl, hl']
  cases schema.validate dateTime v <;> rfl

/-- A member of no valid kind spoils its object. -/
theorem validate_object_of_member {required : List String} {properties : List (String × Schema)}
    {ms : List (JsString × Json)} {k : JsString} {v : Json} (hm : (k, v) ∈ ms)
    (h : validateNamed dateTime properties k v = false) :
    (object required properties).validate dateTime (.obj ms) = false := by
  rw [Bool.eq_false_iff, Ne, validate_object]
  intro ⟨ms', hms, _, hall⟩
  cases hms
  have := hall (k, v) hm
  rw [h] at this; cases this

end Schema

end NotifyHub
