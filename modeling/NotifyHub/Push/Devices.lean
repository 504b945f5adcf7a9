/-
  NotifyHub.Push.Devices — the devices of the users
  (apps/gateway/src/modules/devices/devices.repository.ts, devices.routes.ts and
  packages/contracts/src/schemas/devices.ts).

  A row is found by its id and its owner, so a request sees and changes the rows of its own
  user alone: what the requests of one user answer, and the rows they leave, is what they
  answer and leave without the requests of all others (`devices_isolated`). What is stored
  has passed the schemas of the bodies, so what is answered passes those of the responses.
-/

import Mathlib.Data.List.Induction
import NotifyHub.Contracts.Events
import NotifyHub.Lib.Run

namespace NotifyHub.Push

open Contracts Schema

inductive DevicePlatform where
  | windows
  | linux
  | android
  deriving DecidableEq

def DevicePlatform.name : DevicePlatform → String
  | .windows => "windows"
  | .linux => "linux"
  | .android => "android"

structure DeviceRecord where
  id : JsString
  userId : JsString
  name : JsString
  platform : DevicePlatform
  fcmToken : Option JsString
  enabled : Bool
  soundEnabled : Bool
  deriving DecidableEq

structure DevicePatch where
  name : Option JsString
  enabled : Option Bool
  soundEnabled : Option Bool
  /-- A token, or `null`. -/
  fcmToken : Option (Option JsString)

structure AndroidPushTarget where
  id : JsString
  fcmToken : JsString
  soundEnabled : Bool
  deriving DecidableEq

/-! ## The repository -/

/-- A row's id as the database prints it; `uuid` values are compared without regard to case. -/
def canonical (id : JsString) : JsString := id.map lower

def DeviceRecord.set (patch : DevicePatch) (row : DeviceRecord) : DeviceRecord :=
  { row with name := patch.name.getD row.name, enabled := patch.enabled.getD row.enabled,
             soundEnabled := patch.soundEnabled.getD row.soundEnabled, fcmToken := patch.fcmToken.getD row.fcmToken }

/-- `and(eq(devices.id, id), eq(devices.userId, userId))` -/
def DeviceRecord.owned (userId id : JsString) (row : DeviceRecord) : Bool :=
  row.id == canonical id && row.userId == userId

namespace DeviceRepository

/-- The rows in the order they were created in. -/
def list (rows : List DeviceRecord) (userId : JsString) : List DeviceRecord := rows.filter (·.userId == userId)

/-- `drawn` is the id the database draws; the primary key refuses one that is there. -/
def create (rows : List DeviceRecord) (userId drawn name : JsString) (platform : DevicePlatform)
    (fcmToken : Option JsString)
    (enabled soundEnabled : Bool) : Option (List DeviceRecord × DeviceRecord) :=
  if rows.any (·.id == canonical drawn) then none
  else
    some (rows ++ [⟨canonical drawn, userId, name, platform, fcmToken, enabled, soundEnabled⟩],
      ⟨canonical drawn, userId, name, platform, fcmToken, enabled, soundEnabled⟩)

def update (rows : List DeviceRecord) (userId id : JsString) (patch : DevicePatch) :
    List DeviceRecord × Option DeviceRecord :=
  (rows.map fun row => if row.owned userId id then row.set patch
    else row, (rows.find? (·.owned userId id)).map (·.set patch))

def delete (rows : List DeviceRecord) (userId id : JsString) : List DeviceRecord × Bool :=
  (rows.filter (!·.owned userId id), rows.any (·.owned userId id))

def listAndroidPushTargets (rows : List DeviceRecord) (userId : JsString) : List AndroidPushTarget :=
  rows.filterMap fun row =>
    if row.userId == userId && row.platform == .android && row.enabled then row.fcmToken.map fun t =>
      ⟨row.id, t, row.soundEnabled⟩
    else none

end DeviceRepository

/-! ## Contracts -/

def deviceName : Schema := string 1 (some 64) none

def devicePlatform : Schema := enum ["windows", "linux", "android"]

def fcmToken : Schema := string 1 (some 4096) none

def deviceSchema : Schema :=
  object ["id", "name", "platform", "enabled", "soundEnabled"]
    [("id", nonEmptyString), ("name", deviceName), ("platform", devicePlatform), ("enabled", boolean),
      ("soundEnabled", boolean),
      ("fcmToken", fcmToken)]

def deviceListResponseSchema : Schema := array 0 none deviceSchema

/-- What `registerDeviceBodySchema` lets through. -/
structure RegisterDeviceBody where
  name : JsString
  platform : DevicePlatform
  fcmToken : Option JsString
  enabled : Option Bool
  soundEnabled : Option Bool
  name_bounded : Bounded 64 name
  token_bounded : ∀ t, fcmToken = some t → Bounded 4096 t

/-- What `patchDeviceBodySchema` lets through. -/
structure PatchDeviceBody where
  name : Option JsString
  enabled : Option Bool
  soundEnabled : Option Bool
  fcmToken : Option JsString
  name_bounded : ∀ n, name = some n → Bounded 64 n
  token_bounded : ∀ t, fcmToken = some t → Bounded 4096 t
  some_property : name ≠ none ∨ enabled ≠ none ∨ soundEnabled ≠ none ∨ fcmToken ≠ none

def PatchDeviceBody.patch (body : PatchDeviceBody) : DevicePatch :=
  ⟨body.name, body.enabled, body.soundEnabled, body.fcmToken.map some⟩

/-! ## The routes -/

def toResponse (record : DeviceRecord) : Json :=
  .obj (field "id" (.str record.id) :: field "name" (.str record.name) :: field "platform"
    (.str (js record.platform.name)) ::
    field "enabled" (.bool record.enabled) :: field "soundEnabled" (.bool record.soundEnabled) ::
      optionalField "fcmToken" (record.fcmToken.map .str))

def errorBody (code message : String) : Json :=
  .obj [field "error" (.obj [field "code" (.str (js code)), field "message" (.str (js message))])]

/-- A status and the body, if there is one. -/
abbrev Reply := Nat × Option Json

def sendNotFound : Reply := (404, some (errorBody "NOT_FOUND" "Device not found"))

/-- An error that no route catches. -/
def internalError : Reply := (500, some (errorBody "INTERNAL" "Internal server error"))

inductive DeviceRequest where
  | list
  /-- `drawn` is what the database draws for the row. -/
  | create (body : RegisterDeviceBody) (drawn : JsString)
  | patch (id : JsString) (body : PatchDeviceBody)
  | delete (id : JsString)

/-- A request of an authenticated user: the rows after it, and its answer. -/
def handle (rows : List DeviceRecord) (userId : JsString) : DeviceRequest → List DeviceRecord × Reply
  | .list => (rows, 200, some (.arr ((DeviceRepository.list rows userId).map toResponse)))
  | .create body drawn =>
    match DeviceRepository.create rows userId drawn body.name body.platform body.fcmToken (body.enabled.getD true)
        (body.soundEnabled.getD true) with
    | none => (rows, internalError)
    | some (rows', record) => (rows', 201, some (toResponse record))
  | .patch id body =>
    if isUuid id then
      match DeviceRepository.update rows userId id body.patch with
      | (rows', none) => (rows', sendNotFound)
      | (rows', some record) => (rows', 200, some (toResponse record))
    else (rows, sendNotFound)
  | .delete id =>
    if isUuid id then
      match DeviceRepository.delete rows userId id with
      | (rows', false) => (rows', sendNotFound)
      | (rows', true) => (rows', 204, none)
    else (rows, sendNotFound)

/-! ## What is stored -/

structure DeviceRecord.Valid (row : DeviceRecord) : Prop where
  id : row.id ≠ []
  name : Bounded 64 row.name
  token : ∀ t, row.fcmToken = some t → Bounded 4096 t

/-- The ids that the database draws are UUIDs that no row has. -/
def Drawn (rows : List DeviceRecord) : DeviceRequest → Prop
  | .create _ drawn => isUuid drawn = true ∧ ∀ row ∈ rows, row.id ≠ canonical drawn
  | _ => True

instance drawnDecidable (rows : List DeviceRecord) : ∀ r : DeviceRequest, Decidable (Drawn rows r)
  | .list => inferInstanceAs (Decidable True)
  | .create _ drawn => inferInstanceAs (Decidable (isUuid drawn = true ∧ ∀ row ∈ rows, row.id ≠ canonical drawn))
  | .patch _ _ => inferInstanceAs (Decidable True)
  | .delete _ => inferInstanceAs (Decidable True)

theorem uuid_ne_nil {id : JsString} (h : isUuid id = true) : id ≠ [] := by
  intro hnil
  rw [hnil] at h
  revert h
  decide

theorem DeviceRecord.Valid.set {row : DeviceRecord} (h : row.Valid) (body : PatchDeviceBody) :
    (row.set body.patch).Valid := by
  refine ⟨h.id, ?_, fun t ht => ?_⟩
  · cases hn : body.name with
    | none => simpa [DeviceRecord.set, PatchDeviceBody.patch, hn] using h.name
    | some n => simpa [DeviceRecord.set, PatchDeviceBody.patch, hn] using body.name_bounded n hn
  · cases hb : body.fcmToken with
    | none =>
      rw [DeviceRecord.set, PatchDeviceBody.patch, hb] at ht
      exact h.token t ht
    | some t' =>
      rw [DeviceRecord.set, PatchDeviceBody.patch, hb] at ht
      cases ht
      exact body.token_bounded t hb

theorem create_eq {rows rows' : List DeviceRecord} {userId drawn name : JsString} {platform : DevicePlatform}
    {fcmToken : Option JsString} {enabled soundEnabled : Bool} {record : DeviceRecord}
    (h : DeviceRepository.create rows userId drawn name platform fcmToken enabled soundEnabled = some (rows', record)) :
    (∀ row ∈ rows, row.id ≠ canonical drawn) ∧ rows' = rows ++ [record] ∧
      record = ⟨canonical drawn, userId, name, platform, fcmToken, enabled, soundEnabled⟩ := by
  unfold DeviceRepository.create at h
  split at h
  · cases h
  · rename_i hnew
    cases h
    refine ⟨fun row hrow heq => hnew ?_, rfl, rfl⟩
    rw [List.any_eq_true]
    exact ⟨row, hrow, beq_iff_eq.mpr heq⟩

theorem create_new {rows : List DeviceRecord} {drawn : JsString} (h : ∀ row ∈ rows, row.id ≠ canonical drawn)
    (userId name : JsString) (platform : DevicePlatform) (fcmToken : Option JsString) (enabled soundEnabled : Bool) :
    DeviceRepository.create rows userId drawn name platform fcmToken enabled soundEnabled =
      some (rows ++ [⟨canonical drawn, userId, name, platform, fcmToken, enabled, soundEnabled⟩],
        ⟨canonical drawn, userId, name, platform, fcmToken, enabled, soundEnabled⟩) := by
  unfold DeviceRepository.create
  rw [if_neg]
  rw [List.any_eq_true]
  rintro ⟨row, hrow, heq⟩
  exact h row hrow (beq_iff_eq.mp heq)

theorem created_valid (userId drawn : JsString) (body : RegisterDeviceBody) (h : isUuid drawn = true) :
    (⟨canonical drawn, userId, body.name, body.platform, body.fcmToken, body.enabled.getD true,
      body.soundEnabled.getD true⟩ :
      DeviceRecord).Valid :=
  ⟨fun hnil => uuid_ne_nil h (List.map_eq_nil_iff.mp hnil), body.name_bounded, body.token_bounded⟩

/-- Every request leaves valid rows. -/
theorem handle_valid {rows : List DeviceRecord} (h : ∀ row ∈ rows, row.Valid) (userId : JsString) {r : DeviceRequest}
    (hd : Drawn rows r) : ∀ row ∈ (handle rows userId r).1, row.Valid := by
  cases r with
  | list => exact h
  | create body drawn =>
    simp only [handle, create_new hd.2]
    intro row hrow
    rcases List.mem_append.mp hrow with hrow | hrow
    · exact h row hrow
    · rw [List.mem_singleton.mp hrow]
      exact created_valid userId drawn body hd.1
  | patch id body =>
    have hall : ∀ row ∈ (DeviceRepository.update rows userId id body.patch).1, row.Valid := by
      intro row hrow
      obtain ⟨old, hold, rfl⟩ := List.mem_map.mp hrow
      split
      · exact (h old hold).set body
      · exact h old hold
    simp only [handle]
    split
    · split
      · rename_i heq
        rw [heq] at hall
        exact hall
      · rename_i heq
        rw [heq] at hall
        exact hall
    · exact h
  | delete id =>
    have hall : ∀ row ∈ (DeviceRepository.delete rows userId id).1, row.Valid :=
      fun row hrow => h row (List.mem_of_mem_filter hrow)
    simp only [handle]
    split
    · split
      · rename_i heq
        rw [heq] at hall
        exact hall
      · rename_i heq
        rw [heq] at hall
        exact hall
    · exact h

/-! ## What is answered -/

section
variable {dateTime : JsString → Bool}

theorem platform_valid (p : DevicePlatform) : devicePlatform.validate dateTime (.str (js p.name)) = true := by
  refine validate_enum.mpr ⟨p.name, ?_, rfl⟩
  cases p <;> simp [DevicePlatform.name]

theorem toResponse_valid {row : DeviceRecord} (h : row.Valid) :
    deviceSchema.validate dateTime (toResponse row) = true := by
  have hjson : toResponse row = .obj (([("id", nonEmptyString, Json.str row.id), ("name", deviceName, .str row.name),
      ("platform", devicePlatform, .str (js row.platform.name)), ("enabled", boolean, .bool row.enabled),
      ("soundEnabled", boolean, .bool row.soundEnabled)] ++
      optionalTriple "fcmToken" fcmToken (row.fcmToken.map .str)).map fun f => (js f.1, f.2.2)) := by
    rw [List.map_append, map_optionalTriple]
    rfl
  rw [deviceSchema, hjson, validate_fields _ (by decide) _ ?_ (by simp)]
  · simp only [List.forall_mem_append, List.forall_mem_cons, forall_optionalTriple, validate_nonEmpty,
      deviceName, validate_bounded,
      platform_valid, validate_boolean]
    refine ⟨⟨h.id, h.name, trivial, trivial, trivial, by simp⟩, fun v hv => ?_⟩
    obtain ⟨t, ht, rfl⟩ := Option.map_eq_some_iff.mp hv
    exact validate_bounded.mpr (h.token t ht)
  · simp only [List.forall_mem_append, List.forall_mem_cons, forall_optionalTriple]
    simp

end

/-- The schema of what a request answers when it succeeds. -/
def DeviceRequest.response : DeviceRequest → Option Schema
  | .list => some deviceListResponseSchema
  | .create .. | .patch .. => some deviceSchema
  | .delete _ => none

theorem handle_answers (dateTime : JsString → Bool) {rows : List DeviceRecord} (h : ∀ row ∈ rows, row.Valid)
    (userId : JsString)
    {r : DeviceRequest} (hd : Drawn rows r) {status : Nat} {body : Json}
    (ha : (handle rows userId r).2 = (status, some body))
    (hs : status < 300) : ∃ schema, r.response = some schema ∧ schema.validate dateTime body = true := by
  cases r with
  | list =>
    simp only [handle, Prod.mk.injEq, Option.some.injEq] at ha
    refine ⟨_, rfl, ?_⟩
    rw [← ha.2]
    exact validate_array_map.mpr
      ⟨Nat.zero_le _, rfl, fun row hrow => toResponse_valid (h row (List.mem_of_mem_filter hrow))⟩
  | create body' drawn =>
    simp only [handle, create_new hd.2, Prod.mk.injEq, Option.some.injEq] at ha
    refine ⟨_, rfl, ?_⟩
    rw [← ha.2]
    exact toResponse_valid (created_valid userId drawn body' hd.1)
  | patch id body' =>
    have hnone : ∀ status body, sendNotFound = (status, some body) → ¬ status < 300 := by
      intro status body hsend
      cases hsend
      omega
    simp only [handle] at ha
    split at ha
    · split at ha
      · exact absurd hs (hnone _ _ ha)
      · rename_i rows' record heq
        simp only [Prod.mk.injEq, Option.some.injEq] at ha
        refine ⟨_, rfl, ?_⟩
        rw [← ha.2]
        obtain ⟨old, hold, rfl⟩ := Option.map_eq_some_iff.mp (congrArg Prod.snd heq)
        exact toResponse_valid ((h old (List.mem_of_find?_eq_some hold)).set body')
    · exact absurd hs (hnone _ _ ha)
  | delete id =>
    simp only [handle] at ha
    split at ha
    · split at ha
      · cases ha
        omega
      · cases ha
    · cases ha
      omega

/-! ## Users apart -/

/-- A request of a user in a run of all of them. -/
abbrev deviceStep (rows : List DeviceRecord) (e : JsString × DeviceRequest) : List DeviceRecord :=
  (handle rows e.1 e.2).1

theorem list_append (rows rows' : List DeviceRecord) (userId : JsString) :
    DeviceRepository.list (rows ++ rows') userId = DeviceRepository.list rows userId ++
      DeviceRepository.list rows' userId :=
  List.filter_append ..

@[simp] theorem set_userId (row : DeviceRecord) (patch : DevicePatch) : (row.set patch).userId = row.userId := rfl

@[simp] theorem set_id (row : DeviceRecord) (patch : DevicePatch) : (row.set patch).id = row.id := rfl

theorem owned_iff {userId id : JsString} {row : DeviceRecord} :
    row.owned userId id = true ↔ row.id = canonical id ∧ row.userId = userId := by
  simp [DeviceRecord.owned]

theorem list_update (rows : List DeviceRecord) (userId id : JsString) (patch : DevicePatch) (u : JsString) :
    DeviceRepository.list (DeviceRepository.update rows userId id patch).1 u =
      (DeviceRepository.update (DeviceRepository.list rows u) userId id patch).1 := by
  simp only [DeviceRepository.list, DeviceRepository.update, List.filter_map]
  congr 1
  refine List.filter_congr fun row _ => ?_
  simp only [Function.comp_apply]
  split <;> rfl

theorem list_delete (rows : List DeviceRecord) (userId id : JsString) (u : JsString) :
    DeviceRepository.list (DeviceRepository.delete rows userId id).1 u =
      (DeviceRepository.delete (DeviceRepository.list rows u) userId id).1 := by
  simp only [DeviceRepository.list, DeviceRepository.delete, List.filter_filter, Bool.and_comm]

/-- No row of another user is found. -/
theorem not_owned_other {rows : List DeviceRecord} {u userId : JsString} (h : u ≠ userId) (id : JsString) :
    ∀ row ∈ DeviceRepository.list rows userId, row.owned u id = false := by
  intro row hrow
  rw [Bool.eq_false_iff, Ne, owned_iff]
  rintro ⟨-, hu⟩
  exact h (hu.symm.trans (beq_iff_eq.mp (List.mem_filter.mp hrow).2))

theorem find_own (rows : List DeviceRecord) (userId id : JsString) :
    (DeviceRepository.list rows userId).find? (·.owned userId id) = rows.find? (·.owned userId id) := by
  rw [DeviceRepository.list, List.find?_filter]
  congr 1
  funext row
  rw [Bool.eq_iff_iff, decide_eq_true_iff, owned_iff, beq_iff_eq]
  exact ⟨fun h => h.2, fun h => ⟨h.2, h⟩⟩

theorem any_own (rows : List DeviceRecord) (userId id : JsString) :
    (DeviceRepository.list rows userId).any (·.owned userId id) = rows.any (·.owned userId id) := by
  rw [← List.isSome_find?, ← List.isSome_find?, find_own]

theorem list_list (rows : List DeviceRecord) (userId : JsString) :
    DeviceRepository.list (DeviceRepository.list rows userId) userId = DeviceRepository.list rows userId := by
  simp [DeviceRepository.list]

/-- A request leaves the rows of every other user alone. -/
theorem handle_other {u userId : JsString} (hu : u ≠ userId) (rows : List DeviceRecord) (r : DeviceRequest) :
    DeviceRepository.list (handle rows u r).1 userId = DeviceRepository.list rows userId := by
  cases r with
  | list => rfl
  | create body drawn =>
    simp only [handle]
    split
    · rfl
    · rename_i rows' record heq
      obtain ⟨-, rfl, rfl⟩ := create_eq heq
      simp [DeviceRepository.list, hu]
  | patch id body =>
    have hsame : DeviceRepository.list (DeviceRepository.update rows u id body.patch).1 userId =
      DeviceRepository.list rows userId := by
      rw [list_update, DeviceRepository.update]
      refine (List.map_congr_left fun row hrow => ?_).trans (List.map_id _)
      rw [not_owned_other hu id row hrow]
      rfl
    simp only [handle]
    split
    · split
      · rename_i heq
        rw [← hsame, heq]
      · rename_i heq
        rw [← hsame, heq]
    · rfl
  | delete id =>
    have hsame : DeviceRepository.list (DeviceRepository.delete rows u id).1 userId =
      DeviceRepository.list rows userId := by
      rw [list_delete, DeviceRepository.delete, List.filter_eq_self]
      intro row hrow
      rw [not_owned_other hu id row hrow]
      rfl
    simp only [handle]
    split
    · split
      · rename_i heq
        rw [← hsame, heq]
      · rename_i heq
        rw [← hsame, heq]
    · rfl

/-- A request finds among the rows of its user what it finds among all. -/
theorem handle_own {rows : List DeviceRecord} {userId : JsString} {r : DeviceRequest} (hd : Drawn rows r) :
    handle (DeviceRepository.list rows userId) userId r =
      (DeviceRepository.list (handle rows userId r).1 userId, (handle rows userId r).2) := by
  cases r with
  | list => simp only [handle, list_list]
  | create body drawn =>
    have hown : ∀ row ∈ DeviceRepository.list rows userId, row.id ≠ canonical drawn :=
      fun row hrow => hd.2 row (List.mem_of_mem_filter hrow)
    simp only [handle, create_new hd.2, create_new hown, list_append]
    simp [DeviceRepository.list]
  | patch id body =>
    have hrows := list_update rows userId id body.patch userId
    have hrow := find_own rows userId id
    simp only [handle, DeviceRepository.update] at hrows ⊢
    rw [hrow]
    cases rows.find? (·.owned userId id) with
    | none =>
      simp only [Option.map_none]
      split
      · exact congrArg (·, _) hrows.symm
      · rfl
    | some row =>
      simp only [Option.map_some]
      split
      · exact congrArg (·, _) hrows.symm
      · rfl
  | delete id =>
    have hrows := list_delete rows userId id userId
    have hrow := any_own rows userId id
    simp only [handle, DeviceRepository.delete] at hrows ⊢
    rw [hrow]
    cases rows.any (·.owned userId id) with
    | false =>
      split
      · exact congrArg (·, _) hrows.symm
      · rfl
    | true =>
      split
      · exact congrArg (·, _) hrows.symm
      · rfl

/-- In every run of requests, the rows of a user, and what the user's requests answer, are those of the run of these
    requests alone; what is answered with success passes its schema. -/
theorem devices_isolated (dateTime : JsString → Bool) (userId : JsString) {es : List (JsString × DeviceRequest)}
    (hd : Along deviceStep (fun rows e => Drawn rows e.2) [] es) :
    DeviceRepository.list (runFrom deviceStep [] es) userId = runFrom deviceStep [] (es.filter (·.1 == userId)) ∧
      ∀ before r after, es = before ++ (userId, r) :: after →
        (handle (runFrom deviceStep [] before) userId r).2 =
          (handle (runFrom deviceStep [] (before.filter (·.1 == userId))) userId r).2 ∧
          ∀ status body, (handle (runFrom deviceStep [] before) userId r).2 = (status, some body) → status < 300 →
            ∃ schema, r.response = some schema ∧ schema.validate dateTime body = true := by
  have rows : ∀ es, Along deviceStep (fun rows e => Drawn rows e.2) [] es →
      DeviceRepository.list (runFrom deviceStep [] es) userId = runFrom deviceStep [] (es.filter (·.1 == userId)) := by
    intro es
    induction es using List.reverseRecOn with
    | nil => intro _; rfl
    | append_singleton es e ih =>
      intro h
      obtain ⟨hes, he⟩ := along_append.mp h
      rw [List.filter_append, runFrom_append, runFrom_append, ← ih hes]
      by_cases hu : e.1 = userId
      · obtain ⟨u, r⟩ := e
        subst hu
        simp [deviceStep, handle_own he.1]
      · simp [deviceStep, handle_other hu, hu]
  refine ⟨rows es hd, fun before r after hes => ?_⟩
  subst hes
  obtain ⟨hbefore, hr⟩ := along_append.mp hd
  have hvalid : ∀ row ∈ runFrom deviceStep [] before, row.Valid :=
    hbefore.inv (I := fun rows => ∀ row ∈ rows, row.Valid) (fun rows e h he => handle_valid h e.1 he) (by simp)
  refine ⟨?_, fun status body ha hs => handle_answers dateTime hvalid userId hr.1 ha hs⟩
  rw [← rows before hbefore, handle_own hr.1]

/-! ## Two users -/

def phoneId : JsString := js "0A000000-0000-4000-8000-000000000001"

def tabletId : JsString := js "0A000000-0000-4000-8000-000000000002"

theorem phone_name : Bounded 64 (js "Phone") := ⟨by decide, by decide⟩

theorem no_token {n : Nat} : ∀ t, (none : Option JsString) = some t → Bounded n t := by simp

def phone : RegisterDeviceBody := ⟨js "Phone", .android, none, none, none, phone_name, no_token⟩

theorem quiet_property : (none : Option JsString) ≠ none ∨ (none : Option Bool) ≠ none ∨ some false ≠ none ∨
    (none : Option JsString) ≠ none := by simp

def quiet : PatchDeviceBody := ⟨none, none, some false, none, no_token, no_token, quiet_property⟩

/-- Each registers a device; then one would quiet the other's, and then its own. -/
def twoUsers : List (JsString × DeviceRequest) :=
  [(js "ann", .create phone phoneId), (js "bob", .create phone tabletId), (js "ann", .patch tabletId quiet),
    (js "ann", .patch phoneId quiet), (js "bob", .list)]

theorem two_users_apart : DeviceRepository.list (runFrom deviceStep [] twoUsers) (js "bob") =
    runFrom deviceStep [] [(js "bob", .create phone tabletId), (js "bob", .list)] :=
  (devices_isolated (fun _ => true) (js "bob") (by decide +kernel)).1

end NotifyHub.Push
