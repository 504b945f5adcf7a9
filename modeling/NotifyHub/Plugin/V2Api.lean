/-
  NotifyHub.Plugin.V2Api — the requests of `V2Api` (packages/plugin/src/v2-api.ts):
  `request`, `json`, `session`, and the reading of forms, `questionFromForm`.

  Requests are made one after the other. What becomes of each is up to a `World`, which may
  go by all that came before: the server cannot be reached or the signal is aborted, so that
  nothing is sent; the response is lost; or it comes, with any status and any body.

  A body is read as the code reads it: a member of `null` or `undefined` throws, and so does
  calling what is no function.
-/

import NotifyHub.Contracts.Frames
import NotifyHub.Lib.Percent

namespace NotifyHub.Plugin.V2

open Percent (encodeURIComponent pathname)

/-! ## Reading values -/

/-- What is thrown: an `ApiError` with its status and `_tag`, or another error. -/
inductive Thrown where
  | api (status : Nat) (tag : Option Json)
  | other

/-- `value?.name` -/
def chained (value : Option Json) (name : String) : Option Json :=
  match value with
  | some (.obj ms) => member ms name
  | _ => none

/-- `value.name` -/
def property (value : Option Json) (name : String) : Except Thrown (Option Json) :=
  if nonNullish value then .ok (chained value name) else .error .other

/-- `a || b` -/
def orElse (a : Option Json) (b : Option Json) : Option Json := if truthy a then a else b

/-- The text of a string. -/
def stringOf (value : Option Json) : Option JsString := value.bind Json.str?

/-- `m · 10 ^ e = m' · 10 ^ e'` -/
def sameNumber (m e m' e' : Int) : Bool := m * 10 ^ (e - min e e').toNat == m' * 10 ^ (e' - min e e').toNat

/-- `a === b`, of values at different places of a parsed text: no two objects are the same. -/
def strictEq : Option Json → Option Json → Bool
  | none, none | some .null, some .null => true
  | some (.bool a), some (.bool b) => a == b
  | some (.num m e), some (.num m' e') => sameNumber m e m' e'
  | some (.str a), some (.str b) => a == b
  | _, _ => false

/-- An object literal, less the members that are `undefined`. -/
def literal (members : List (String × Option Json)) : Json :=
  .obj (members.filterMap fun m => m.2.map fun v => (js m.1, v))

/-! ## Requests -/

/-- A response; `body` is what `json()` comes to, none where it throws, and `cancels` whether
    `body.cancel()` settles. -/
structure Response where
  status : Nat
  body : Option Json
  cancels : Bool

def Response.ok (r : Response) : Bool := 200 ≤ r.status && r.status < 300

inductive Request where
  | get (path : JsString)
  | post (path : JsString) (body : Json)

def Request.isPost : Request → Bool
  | .get _ => false
  | .post _ _ => true

/-- What becomes of a request. -/
inductive Outcome where
  /-- `server()` or `throwIfAborted()` threw. -/
  | unsent
  /-- `fetch` threw. -/
  | lost
  | answered (response : Response)

structure Exchange where
  request : Request
  outcome : Outcome

abbrev World := List Exchange → Request → Outcome

/-- Code that makes requests: they are kept in order, also where it throws. -/
abbrev Api := ExceptT Thrown (StateM (List Exchange))

def Outcome.response : Outcome → Except Thrown Response
  | .answered response => .ok response
  | _ => .error .other

/-- The `_tag` of an error response; `json()` may throw, and its value may be `null`. -/
def Response.tag (r : Response) : Except Thrown (Option Json) :=
  match r.body with
  | none => .ok none
  | some error => property (some error) "_tag"

/-- What `json` makes of a response. -/
def Response.read (r : Response) : Except Thrown Json :=
  if r.ok then
    match r.body with
    | some value => .ok value
    | none => .error .other
  else do throw (.api r.status (← r.tag))

variable (W : World) (directory : JsString)

/-- `request` -/
def request (path : JsString) (body : Option Json) : Api Response := do
  let asked := match body with
    | none => Request.get (pathname path)
    | some body => .post (pathname path) body
  let past ← get
  set (past ++ [⟨asked, W past asked⟩])
  (W past asked).response

def json (path : JsString) : Api Json := do (← request W path none).read

/-! ## Sessions -/

structure HostSession where
  id : JsString
  parentID : Option Json
  /-- `title ?? ""` -/
  title : Json
  directory : JsString
  updated : Int × Int
  archived : Option Json

def hostSession (session : Option Json) : Except Thrown HostSession :=
  match chained session "id", chained (chained session "location") "directory",
    chained (chained session "time") "updated" with
  | some (.str id), some (.str directory), some (.num mantissa exponent) =>
    .ok
      { id
        parentID := chained session "parentID"
        title := match chained session "title" with
          | none | some .null => .str []
          | some title => title
        directory
        updated := (mantissa, exponent)
        archived := chained (chained session "time") "archived" }
  | _, _, _ => .error .other

/-- `/api/session/${id}`, of an encoded id -/
def sessionPath (id : JsString) : JsString := js "/api/session/" ++ id

/-- What `session` makes of the body. -/
def readSession (id : JsString) (result : Json) : Except Thrown HostSession := do
  let session ← hostSession (← property (some result) "data")
  if session.id ≠ id ∨ session.directory ≠ directory then throw (.api 404 (some (.str (js "SessionNotFoundError"))))
  return session

def session (id : JsString) : Api HostSession := do
  match encodeURIComponent id with
  | none => throw .other
  | some encoded => readSession directory id (← json W (sessionPath encoded))

/-! ## Forms -/

/-- `some((item, index) => …)`, in order, up to the first that is true or throws. -/
def someFrom (p : Nat → Json → Except Thrown Bool) : Nat → List Json → Except Thrown Bool
  | _, [] => .ok false
  | index, item :: items => do if ← p index item then return true else someFrom p (index + 1) items

/-- `q${index}` -/
def questionKey (index : Nat) : JsString := js "q" ++ decimal index

def optionRefused (_ : Nat) (option : Json) : Except Thrown Bool := do
  return !strictEq (← property (some option) "value") (chained (some option) "label")

def fieldType (field : Json) : Option JsString := stringOf (chained (some field) "type")

def fieldRefused (index : Nat) (field : Json) : Except Thrown Bool := do
  if stringOf (← property (some field) "key") ≠ some (questionKey index) then return true
  if fieldType field ≠ some (js "string") ∧ fieldType field ≠ some (js "multiselect") then return true
  if truthy (chained (some field) "options") = false then return true
  match chained (some field) "options" with
  | some (.arr options) => someFrom optionRefused 0 options
  -- it has no `some`
  | _ => throw .other

/-- `form.fields`, where `!form.fields?.length` is false; only an array then has a `some`. -/
def formFields (form : Option Json) : Except Thrown (Option (List Json)) :=
  match chained form "fields" with
  | some (.arr fields) => .ok (if fields = [] then none else some fields)
  | some (.str text) => if text = [] then .ok none else .error .other
  | some (.obj ms) => if truthy (member ms "length") then .error .other else .ok none
  | _ => .ok none

def titleOf (field : Json) : Option Json := orElse (chained (some field) "title") (some (.str (js "Question")))

/-- A question of the listing, made of a field. -/
def fieldQuestion (field : Json) : Json :=
  literal [("header", titleOf field), ("question", orElse (chained (some field) "description") (titleOf field)),
    ("options", chained (some field) "options"),
    ("multiple", some (.bool (fieldType field = some (js "multiselect")))),
    ("custom", some (.bool (strictEq (chained (some field) "custom") (some (.bool true)))))]

def formQuestion (form : Option Json) (fields : List Json) : Json :=
  let tool := chained (chained form "metadata") "tool"
  literal [("id", chained form "id"), ("sessionID", chained form "sessionID"),
    ("questions", some (.arr (fields.map fieldQuestion))),
    ("tool", if truthy tool then
      some (literal [("messageID", chained tool "messageID"), ("callID", chained tool "id")]) else none)]

/-- `questionFromForm`; none is `null`. -/
def questionFromForm (form : Option Json) : Except Thrown (Option Json) := do
  let metadata ← property form "metadata"
  if stringOf (chained metadata "kind") ≠ some (js "question") then return none
  match ← formFields form with
  | none => return none
  | some fields => if ← someFrom fieldRefused 0 fields then return none else return some (formQuestion form fields)

end NotifyHub.Plugin.V2
