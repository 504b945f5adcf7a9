/-
  NotifyHub.Contracts.Events — the notification events (packages/contracts/src/schemas/events.ts):
  the values of the type `NotifyEvent`, the JSON value each is sent as, and `notifyEventSchema`.
-/

import NotifyHub.Contracts.Frames
import NotifyHub.Contracts.Schemas

namespace NotifyHub.Contracts

structure EventSource where
  machine : JsString
  project : JsString
  directory : JsString
  deriving DecidableEq

structure EventSession where
  id : JsString
  title : JsString
  deriving DecidableEq

inductive HeartbeatStatus where
  | busy
  | retry
  deriving DecidableEq

inductive EventOutcome where
  | completed
  | failed
  | stopped
  deriving DecidableEq

structure EventQuestionOption where
  label : JsString
  description : Option JsString
  deriving DecidableEq

structure EventQuestion where
  question : JsString
  options : Option (List EventQuestionOption)
  multiple : Option Bool
  deriving DecidableEq

structure EventProviderAction where
  provider : JsString
  title : JsString
  message : JsString
  label : JsString
  link : Option JsString
  deriving DecidableEq

/-- The section of an `action_required` payload, after its kind. -/
inductive RequiredAction where
  | question (questions : List EventQuestion)
  | permission (permission summary : JsString)
  | providerAction (action : EventProviderAction)
  deriving DecidableEq

inductive ResolvedKind where
  | question
  | permission
  deriving DecidableEq

/-- The payload of an event; it tells the event's type. -/
inductive EventPayload where
  | heartbeat (status : HeartbeatStatus) (elapsedSeconds : Nat)
  | actionRequired (requestId : JsString) (action : RequiredAction)
  | actionResolved (requestId : JsString) (kind : ResolvedKind)
  | terminal (outcome : EventOutcome) (elapsedSeconds : Nat) (summary : Option JsString)
  deriving DecidableEq

structure NotifyEvent where
  eventId : JsString
  occurredAt : JsString
  source : EventSource
  session : EventSession
  payload : EventPayload
  deriving DecidableEq

/-! ## As JSON -/

def EventSource.toJson (s : EventSource) : Json :=
  .obj [field "machine" (.str s.machine), field "project" (.str s.project), field "directory" (.str s.directory)]

def EventSession.toJson (s : EventSession) : Json := .obj [field "id" (.str s.id), field "title" (.str s.title)]

def HeartbeatStatus.text : HeartbeatStatus → String
  | .busy => "busy"
  | .retry => "retry"

def EventOutcome.text : EventOutcome → String
  | .completed => "completed"
  | .failed => "failed"
  | .stopped => "stopped"

def ResolvedKind.text : ResolvedKind → String
  | .question => "question"
  | .permission => "permission"

def EventQuestionOption.toJson (o : EventQuestionOption) : Json :=
  .obj (field "label" (.str o.label) :: optionalField "description" (o.description.map .str))

def EventQuestion.toJson (q : EventQuestion) : Json :=
  .obj (field "question" (.str q.question) ::
    (optionalField "options" (q.options.map fun l => .arr (l.map EventQuestionOption.toJson)) ++
      optionalField "multiple" (q.multiple.map .bool)))

def EventProviderAction.toJson (a : EventProviderAction) : Json :=
  .obj ([field "provider" (.str a.provider), field "title" (.str a.title), field "message" (.str a.message),
    field "label" (.str a.label)] ++ optionalField "link" (a.link.map .str))

def RequiredAction.toJson (requestId : JsString) : RequiredAction → Json
  | .question questions =>
    .obj [field "requestId" (.str requestId), field "kind" (text "question"),
      field "questions" (.arr (questions.map EventQuestion.toJson))]
  | .permission name summary =>
    .obj [field "requestId" (.str requestId), field "kind" (text "permission"),
      field "permission" (.obj [field "permission" (.str name), field "summary" (.str summary)])]
  | .providerAction action =>
    .obj [field "requestId" (.str requestId), field "kind" (text "provider_action"),
      field "providerAction" action.toJson]

def EventPayload.type : EventPayload → String
  | .heartbeat .. => "heartbeat"
  | .actionRequired .. => "action_required"
  | .actionResolved .. => "action_resolved"
  | .terminal .. => "terminal"

def EventPayload.toJson : EventPayload → Json
  | .heartbeat status elapsedSeconds =>
    .obj [field "status" (Contracts.text status.text), field "elapsedSeconds" (.num elapsedSeconds 0)]
  | .actionRequired requestId action => action.toJson requestId
  | .actionResolved requestId kind => .obj [field "requestId" (.str requestId), field "kind" (Contracts.text kind.text)]
  | .terminal outcome elapsedSeconds summary =>
    .obj ([field "outcome" (Contracts.text outcome.text), field "elapsedSeconds" (.num elapsedSeconds 0)] ++
      optionalField "summary" (summary.map .str))

def NotifyEvent.toJson (e : NotifyEvent) : Json :=
  .obj [field "eventId" (.str e.eventId), field "type" (text e.payload.type), field "occurredAt" (.str e.occurredAt),
    field "source" e.source.toJson, field "session" e.session.toJson, field "payload" e.payload.toJson]

/-! ## The schema -/

open Schema

def eventSourceSchema : Schema :=
  object ["machine", "project", "directory"]
    [("machine", nonEmptyString), ("project", nonEmptyString), ("directory", nonEmptyString)]

def eventSessionSchema : Schema := object ["id", "title"] [("id", nonEmptyString), ("title", anyString)]

def elapsedSecondsSchema : Schema := integer (some 0) none

def heartbeatPayloadSchema : Schema :=
  object ["status", "elapsedSeconds"] [("status", enum ["busy", "retry"]), ("elapsedSeconds", elapsedSecondsSchema)]

def terminalPayloadSchema : Schema :=
  object ["outcome", "elapsedSeconds"]
    [("outcome", enum ["completed", "failed", "stopped"]), ("elapsedSeconds", elapsedSecondsSchema),
      ("summary", string 0 (some 500) none)]

def questionOptionSchema : Schema :=
  object ["label"] [("label", nonEmptyString), ("description", anyString)]

def questionItemSchema : Schema :=
  object ["question"]
    [("question", string 1 (some 2000) none), ("options", array 0 (some 16) questionOptionSchema),
      ("multiple", boolean)]

def permissionSectionSchema : Schema :=
  object ["permission", "summary"] [("permission", nonEmptyString), ("summary", string 1 (some 500) none)]

def providerActionSectionSchema : Schema :=
  object ["provider", "title", "message", "label"]
    [("provider", string 1 (some 120) none), ("title", string 1 (some 120) none), ("message", string 1 (some 500) none),
      ("label", string 1 (some 120) none), ("link", string 0 (some 2048) (some .uri))]

/-- One alternative of `actionRequiredPayloadSchema`, with the schema of its section. -/
def actionSchema (kind name : String) (content : Schema) : Schema :=
  object ["requestId", "kind", name] [("requestId", nonEmptyString), ("kind", tag kind), (name, content)]

def actionRequiredPayloadSchema : Schema :=
  oneOf
    [actionSchema "question" "questions" (array 1 (some 8) questionItemSchema),
      actionSchema "permission" "permission" permissionSectionSchema,
      actionSchema "provider_action" "providerAction" providerActionSectionSchema]

def actionResolvedPayloadSchema : Schema :=
  object ["requestId", "kind"] [("requestId", nonEmptyString), ("kind", enum ["question", "permission"])]

/-- `eventEnvelope`, with the type and the payload of one event. -/
def eventSchema (type : String) (payload : Schema) : Schema :=
  object ["eventId", "type", "occurredAt", "source", "session", "payload"]
    [("eventId", uuidString), ("occurredAt", dateTimeString), ("source", eventSourceSchema),
      ("session", eventSessionSchema), ("type", tag type), ("payload", payload)]

def heartbeatEventSchema : Schema := eventSchema "heartbeat" heartbeatPayloadSchema

def actionRequiredEventSchema : Schema := eventSchema "action_required" actionRequiredPayloadSchema

def actionResolvedEventSchema : Schema := eventSchema "action_resolved" actionResolvedPayloadSchema

def terminalEventSchema : Schema := eventSchema "terminal" terminalPayloadSchema

def notifyEventSchema : Schema :=
  oneOf [heartbeatEventSchema, actionRequiredEventSchema, actionResolvedEventSchema, terminalEventSchema]

/-! ## What the schema says of an event -/

/-- A text of one to `n` code points. -/
def Bounded (n : Nat) (s : JsString) : Prop := s ≠ [] ∧ (codePoints s).length ≤ n

def EventQuestion.Valid (q : EventQuestion) : Prop :=
  Bounded 2000 q.question ∧ ∀ l, q.options = some l → l.length ≤ 16 ∧ ∀ o ∈ l, o.label ≠ []

structure EventProviderAction.Valid (a : EventProviderAction) : Prop where
  provider : Bounded 120 a.provider
  title : Bounded 120 a.title
  message : Bounded 500 a.message
  label : Bounded 120 a.label
  link : ∀ link, a.link = some link → (codePoints link).length ≤ 2048 ∧ Uri.isUri link = true

def RequiredAction.Valid : RequiredAction → Prop
  | .question questions => 1 ≤ questions.length ∧ questions.length ≤ 8 ∧ ∀ q ∈ questions, q.Valid
  | .permission name summary => name ≠ [] ∧ Bounded 500 summary
  | .providerAction action => action.Valid

def EventPayload.Valid : EventPayload → Prop
  | .heartbeat .. => True
  | .actionRequired requestId action => requestId ≠ [] ∧ action.Valid
  | .actionResolved requestId _ => requestId ≠ []
  | .terminal _ _ summary => ∀ s, summary = some s → (codePoints s).length ≤ 500

def EventSource.Valid (s : EventSource) : Prop := s.machine ≠ [] ∧ s.project ≠ [] ∧ s.directory ≠ []

structure NotifyEvent.Valid (dateTime : JsString → Bool) (e : NotifyEvent) : Prop where
  eventId : uuidFormat e.eventId = true
  occurredAt : dateTime e.occurredAt = true
  source : e.source.Valid
  session : e.session.id ≠ []
  payload : e.payload.Valid

section
variable {dateTime : JsString → Bool}

theorem validate_bounded {n : Nat} {s : JsString} :
    (string 1 (some n) none).validate dateTime (.str s) = true ↔ Bounded n s := by
  rw [validate_string]
  simp [Bounded, Nat.succ_le_iff]

theorem validate_capped {n : Nat} {s : JsString} :
    (string 0 (some n) none).validate dateTime (.str s) = true ↔ (codePoints s).length ≤ n := by
  rw [validate_string]
  simp

theorem validate_nonEmpty {s : JsString} : nonEmptyString.validate dateTime (.str s) = true ↔ s ≠ [] := by
  simp [validate_nonEmptyString]

theorem validate_elapsed (n : Nat) : elapsedSecondsSchema.validate dateTime (.num n 0) = true := by
  simp [elapsedSecondsSchema, validate, Json.int?]

theorem source_valid (s : EventSource) : eventSourceSchema.validate dateTime s.toJson = true ↔ s.Valid := by
  rw [eventSourceSchema, show s.toJson = .obj ([("machine", nonEmptyString, .str s.machine),
    ("project", nonEmptyString, .str s.project), ("directory", nonEmptyString, .str s.directory)].map
      fun f => (js f.1, f.2.2)) from rfl, validate_fields _ (by decide) _ (by simp) (by simp)]
  simp [validate_nonEmpty, EventSource.Valid]

theorem session_valid (s : EventSession) : eventSessionSchema.validate dateTime s.toJson = true ↔ s.id ≠ [] := by
  rw [eventSessionSchema,
    show s.toJson = .obj ([("id", nonEmptyString, .str s.id), ("title", anyString, .str s.title)].map
    fun f => (js f.1, f.2.2)) from rfl, validate_fields _ (by decide) _ (by simp) (by simp)]
  simp [validate_nonEmpty, validate_anyString]

/-- A member of an object with its schema, unless it is undefined. -/
def optionalTriple (name : String) (schema : Schema) (value : Option Json) : List (String × Schema × Json) :=
  (value.map fun v => (name, schema, v)).toList

theorem map_optionalTriple (name : String) (schema : Schema) (value : Option Json) :
    (optionalTriple name schema value).map (fun f => (js f.1, f.2.2)) = optionalField name value := by
  cases value <;> rfl

theorem forall_optionalTriple {name : String} {schema : Schema} {value : Option Json}
    {P : String × Schema × Json → Prop} :
    (∀ f ∈ optionalTriple name schema value, P f) ↔ ∀ v, value = some v → P (name, schema, v) := by
  cases value <;> simp [optionalTriple]

theorem option_valid (o : EventQuestionOption) : questionOptionSchema.validate dateTime o.toJson = true ↔
    o.label ≠ [] := by
  have hjson : o.toJson = .obj ((("label", nonEmptyString, Json.str o.label) ::
      optionalTriple "description" anyString (o.description.map .str)).map fun f => (js f.1, f.2.2)) := by
    rw [List.map_cons, map_optionalTriple]
    rfl
  rw [questionOptionSchema, hjson, validate_fields _ (by decide) _ ?_ (by simp)]
  · simp only [List.forall_mem_cons, forall_optionalTriple, validate_nonEmpty, and_iff_left_iff_imp]
    intro _ v hv
    obtain ⟨d, -, rfl⟩ := Option.map_eq_some_iff.mp hv
    exact validate_anyString d
  · simp only [List.forall_mem_cons, forall_optionalTriple]
    simp

theorem question_valid (q : EventQuestion) : questionItemSchema.validate dateTime q.toJson = true ↔ q.Valid := by
  have hjson : q.toJson = .obj ((("question", string 1 (some 2000) none, Json.str q.question) ::
      (optionalTriple "options" (array 0 (some 16) questionOptionSchema)
          (q.options.map fun l => .arr (l.map EventQuestionOption.toJson)) ++
        optionalTriple "multiple" boolean (q.multiple.map .bool))).map fun f => (js f.1, f.2.2)) := by
    rw [List.map_cons, List.map_append, map_optionalTriple, map_optionalTriple]
    rfl
  have hmultiple : ∀ v, q.multiple.map Json.bool = some v → boolean.validate dateTime v = true := by
    intro v hv
    obtain ⟨b, -, rfl⟩ := Option.map_eq_some_iff.mp hv
    exact validate_boolean b
  rw [questionItemSchema, hjson, validate_fields _ (by decide) _ ?_ (by simp)]
  · rw [List.forall_mem_cons, List.forall_mem_append, validate_bounded, EventQuestion.Valid, forall_optionalTriple,
      forall_optionalTriple]
    refine and_congr_right fun _ => ⟨fun ⟨h, _⟩ l hl => ?_, fun h => ⟨fun v hv => ?_, hmultiple⟩⟩
    · obtain ⟨-, hlen, hall⟩ := validate_array_map.mp (h _ (by rw [hl]; rfl))
      exact ⟨by simpa using hlen, fun o ho => (option_valid o).mp (hall o ho)⟩
    · obtain ⟨l, hl, rfl⟩ := Option.map_eq_some_iff.mp hv
      obtain ⟨hlen, hall⟩ := h l hl
      exact validate_array_map.mpr ⟨Nat.zero_le _, by simpa using hlen, fun o ho => (option_valid o).mpr (hall o ho)⟩
  · simp only [List.forall_mem_cons, List.forall_mem_append, forall_optionalTriple]
    simp

theorem link_valid (link : JsString) : (string 0 (some 2048) (some .uri)).validate dateTime (.str link) = true ↔
    (codePoints link).length ≤ 2048 ∧ Uri.isUri link = true := by
  rw [validate_string]
  simp [Format.holds]

theorem providerAction_valid (a : EventProviderAction) :
    providerActionSectionSchema.validate dateTime a.toJson = true ↔ a.Valid := by
  have hjson : a.toJson = .obj (([("provider", string 1 (some 120) none, Json.str a.provider),
      ("title", string 1 (some 120) none, .str a.title), ("message", string 1 (some 500) none, .str a.message),
      ("label", string 1 (some 120) none, .str a.label)] ++
      optionalTriple "link" (string 0 (some 2048) (some .uri)) (a.link.map .str)).map fun f => (js f.1, f.2.2)) := by
    rw [List.map_append, map_optionalTriple]
    rfl
  rw [providerActionSectionSchema, hjson, validate_fields _ (by decide) _ ?_ (by simp)]
  · rw [List.forall_mem_append, forall_optionalTriple]
    simp only [List.forall_mem_cons, validate_bounded]
    constructor
    · intro ⟨⟨hprovider, htitle, hmessage, hlabel, _⟩, hlink⟩
      exact ⟨hprovider, htitle, hmessage, hlabel, fun link hl => (link_valid link).mp (hlink _ (by rw [hl]; rfl))⟩
    · intro h
      refine ⟨⟨h.provider, h.title, h.message, h.label, nofun⟩, fun v hv => ?_⟩
      obtain ⟨link, hl, rfl⟩ := Option.map_eq_some_iff.mp hv
      exact (link_valid link).mpr (h.link link hl)
  · simp only [List.forall_mem_append, forall_optionalTriple]
    simp

/-- An action under the schema of its kind. -/
theorem action_valid {kind name : String} (hn : [js "requestId", js "kind", js name].Nodup) {content : Schema}
    {requestId : JsString} {v : Json} :
    (actionSchema kind name content).validate dateTime
        (.obj [field "requestId" (.str requestId), field "kind" (text kind), field name v]) = true ↔
      requestId ≠ [] ∧ content.validate dateTime v = true := by
  have hjson : Json.obj [field "requestId" (.str requestId), field "kind" (text kind), field name v] =
      .obj ([("requestId", nonEmptyString, .str requestId), ("kind", tag kind, text kind), (name, content, v)].map
        fun f => (js f.1, f.2.2)) := rfl
  rw [actionSchema, hjson, validate_fields _ (by simpa using hn) _ (by simp) (by simp)]
  simp [validate_nonEmpty, validate_tag]

/-- An action of another kind is refused. -/
theorem action_refused {kind kind' name : String} (hne : js kind' ≠ js kind)
    (hn : [js "requestId", js "kind", js name].Nodup)
    {content : Schema} {ms : List (JsString × Json)} (hm : field "kind" (text kind') ∈ ms) :
    (actionSchema kind name content).validate dateTime (.obj ms) = false :=
  refuses_tag hm hne (by simpa using hn) (by simp)

theorem permission_valid (name summary : JsString) :
    permissionSectionSchema.validate dateTime (.obj [field "permission" (.str name), field "summary" (.str summary)])
      = true ↔
      name ≠ [] ∧ Bounded 500 summary := by
  have hjson : Json.obj [field "permission" (.str name), field "summary" (.str summary)] =
      .obj ([("permission", nonEmptyString, .str name), ("summary", string 1 (some 500) none, .str summary)].map
        fun f => (js f.1, f.2.2)) := rfl
  rw [permissionSectionSchema, hjson, validate_fields _ (by decide) _ (by simp) (by simp)]
  simp [validate_nonEmpty, validate_bounded]

theorem requiredAction_valid (requestId : JsString) (action : RequiredAction) :
    actionRequiredPayloadSchema.validate dateTime (action.toJson requestId) = true ↔ requestId ≠ [] ∧ action.Valid := by
  let questions := actionSchema "question" "questions" (array 1 (some 8) questionItemSchema)
  let permission := actionSchema "permission" "permission" permissionSectionSchema
  let provider := actionSchema "provider_action" "providerAction" providerActionSectionSchema
  cases action with
  | question l =>
    have hkind : field "kind" (text "question") ∈ [field "requestId" (.str requestId), field "kind" (text "question"),
        field "questions" (.arr (l.map EventQuestion.toJson))] := by simp
    have hone : actionRequiredPayloadSchema.validate dateTime (RequiredAction.toJson requestId (.question l)) =
        questions.validate dateTime (RequiredAction.toJson requestId (.question l)) := by
      apply validate_oneOf [] [permission, provider]
      simp only [List.nil_append, List.forall_mem_cons]
      exact ⟨action_refused (by decide) (by decide) hkind,
        action_refused (by decide) (by decide) hkind, nofun⟩
    rw [hone, RequiredAction.toJson, action_valid (by decide), validate_array_map]
    simp [question_valid, RequiredAction.Valid]
  | permission name summary =>
    have hkind : field "kind" (text "permission") ∈
      [field "requestId" (.str requestId), field "kind" (text "permission"),
        field "permission" (.obj [field "permission" (.str name), field "summary" (.str summary)])] := by simp
    have hone : actionRequiredPayloadSchema.validate dateTime
      (RequiredAction.toJson requestId (.permission name summary)) =
        permission.validate dateTime (RequiredAction.toJson requestId (.permission name summary)) := by
      apply validate_oneOf [questions] [provider]
      simp only [List.cons_append, List.nil_append, List.forall_mem_cons]
      exact ⟨action_refused (by decide) (by decide) hkind,
        action_refused (by decide) (by decide) hkind, nofun⟩
    rw [hone, RequiredAction.toJson, action_valid (by decide), permission_valid]
    rfl
  | providerAction a =>
    have hkind : field "kind" (text "provider_action") ∈ [field "requestId" (.str requestId),
        field "kind" (text "provider_action"), field "providerAction" a.toJson] := by simp
    have hone : actionRequiredPayloadSchema.validate dateTime (RequiredAction.toJson requestId (.providerAction a)) =
        provider.validate dateTime (RequiredAction.toJson requestId (.providerAction a)) := by
      apply validate_oneOf [questions, permission] []
      simp only [List.cons_append, List.nil_append, List.forall_mem_cons]
      exact ⟨action_refused (by decide) (by decide) hkind,
        action_refused (by decide) (by decide) hkind, nofun⟩
    rw [hone, RequiredAction.toJson, action_valid (by decide), providerAction_valid]
    rfl

/-! ## Payloads and events -/

/-- The schema of the payload of an event. -/
def payloadSchema : EventPayload → Schema
  | .heartbeat .. => heartbeatPayloadSchema
  | .actionRequired .. => actionRequiredPayloadSchema
  | .actionResolved .. => actionResolvedPayloadSchema
  | .terminal .. => terminalPayloadSchema

theorem payload_valid (p : EventPayload) : (payloadSchema p).validate dateTime p.toJson = true ↔ p.Valid := by
  cases p with
  | heartbeat status elapsedSeconds =>
    have hjson : (EventPayload.heartbeat status elapsedSeconds).toJson =
        .obj ([("status", enum ["busy", "retry"], text status.text),
          ("elapsedSeconds", elapsedSecondsSchema, .num elapsedSeconds 0)].map fun f => (js f.1, f.2.2)) := rfl
    have hstatus : (enum ["busy", "retry"]).validate dateTime (text status.text) = true := by
      rw [validate_enum]
      cases status <;> simp [HeartbeatStatus.text, text]
    rw [payloadSchema, heartbeatPayloadSchema, hjson, validate_fields _ (by decide) _ (by simp) (by simp)]
    simp [hstatus, validate_elapsed, EventPayload.Valid]
  | actionRequired requestId action => exact requiredAction_valid requestId action
  | actionResolved requestId kind =>
    have hjson : (EventPayload.actionResolved requestId kind).toJson =
        .obj ([("requestId", nonEmptyString, .str requestId),
          ("kind", enum ["question", "permission"], text kind.text)].map
          fun f => (js f.1, f.2.2)) := rfl
    have hkind : (enum ["question", "permission"]).validate dateTime (text kind.text) = true := by
      rw [validate_enum]
      cases kind <;> simp [ResolvedKind.text, text]
    rw [payloadSchema, actionResolvedPayloadSchema, hjson, validate_fields _ (by decide) _ (by simp) (by simp)]
    simp [hkind, validate_nonEmpty, EventPayload.Valid]
  | terminal outcome elapsedSeconds summary =>
    have hjson : (EventPayload.terminal outcome elapsedSeconds summary).toJson =
        .obj (([("outcome", enum ["completed", "failed", "stopped"], text outcome.text),
          ("elapsedSeconds", elapsedSecondsSchema, .num elapsedSeconds 0)] ++
          optionalTriple "summary" (string 0 (some 500) none) (summary.map .str)).map fun f => (js f.1, f.2.2)) := by
      rw [List.map_append, map_optionalTriple]
      rfl
    have houtcome : (enum ["completed", "failed", "stopped"]).validate dateTime (text outcome.text) = true := by
      rw [validate_enum]
      cases outcome <;> simp [EventOutcome.text, text]
    rw [payloadSchema, terminalPayloadSchema, hjson, validate_fields _ (by decide) _ ?_ (by simp)]
    · simp only [List.forall_mem_append, List.forall_mem_cons, forall_optionalTriple, houtcome, validate_elapsed]
      constructor
      · rintro ⟨_, h⟩ s hs
        exact validate_capped.mp (h _ (by rw [hs]; rfl))
      · intro h
        refine ⟨⟨trivial, trivial, (by rintro _ ⟨⟩)⟩, fun v hv => ?_⟩
        obtain ⟨s, hs, rfl⟩ := Option.map_eq_some_iff.mp hv
        exact validate_capped.mpr (h s hs)
    · simp only [List.forall_mem_append, List.forall_mem_cons, forall_optionalTriple]
      simp

theorem eventSchema_valid (e : NotifyEvent) :
    (eventSchema e.payload.type (payloadSchema e.payload)).validate dateTime e.toJson = true ↔ e.Valid dateTime := by
  have hjson : e.toJson = .obj
    ([("eventId", uuidString, .str e.eventId), ("type", tag e.payload.type, text e.payload.type),
      ("occurredAt", dateTimeString, .str e.occurredAt), ("source", eventSourceSchema, e.source.toJson),
      ("session", eventSessionSchema, e.session.toJson),
      ("payload", payloadSchema e.payload, e.payload.toJson)].map fun f => (js f.1, f.2.2)) := rfl
  have hdate : dateTimeString.validate dateTime (.str e.occurredAt) = true ↔ dateTime e.occurredAt = true := by
    simp [dateTimeString, validate, Format.holds]
  have huuid : uuidString.validate dateTime (.str e.eventId) = true ↔ uuidFormat e.eventId = true := by
    simp [validate_uuidString]
  rw [eventSchema, hjson, validate_fields _ (by simp; decide) _ (by simp) (by simp)]
  simp only [List.forall_mem_cons, huuid, hdate, validate_tag, source_valid, session_valid, payload_valid]
  constructor
  · rintro ⟨h1, _, h3, h4, h5, h6, _⟩
    exact ⟨h1, h3, h4, h5, h6⟩
  · intro h
    exact ⟨h.eventId, trivial, h.occurredAt, h.source, h.session, h.payload, (by rintro _ ⟨⟩)⟩

/-- An event of another type is refused. -/
theorem event_refused {type : String} (e : NotifyEvent) (hne : js e.payload.type ≠ js type) (payload : Schema) :
    (eventSchema type payload).validate dateTime e.toJson = false := by
  have hm : field "type" (text e.payload.type) ∈ [field "eventId" (.str e.eventId), field "type" (text e.payload.type),
      field "occurredAt" (.str e.occurredAt), field "source" e.source.toJson, field "session" e.session.toJson,
      field "payload" e.payload.toJson] := by simp
  exact refuses_tag hm hne (by simp; decide) (by simp)

/-- What `validateNotifyEvent` accepts. -/
theorem event_valid (e : NotifyEvent) : notifyEventSchema.validate dateTime e.toJson = true ↔ e.Valid dateTime := by
  have hone : notifyEventSchema.validate dateTime e.toJson =
      (eventSchema e.payload.type (payloadSchema e.payload)).validate dateTime e.toJson := by
    have hne {t u : String} (ht : e.payload.type = t) (h : js t ≠ js u) : js e.payload.type ≠ js u := ht.symm ▸ h
    cases hp : e.payload with
    | heartbeat =>
      have ht : e.payload.type = "heartbeat" := by rw [hp]; rfl
      apply validate_oneOf [] [actionRequiredEventSchema, actionResolvedEventSchema, terminalEventSchema]
      simp only [List.nil_append, List.forall_mem_cons]
      exact ⟨event_refused e (hne ht (by decide)) _, event_refused e (hne ht (by decide)) _,
        event_refused e (hne ht (by decide)) _, nofun⟩
    | actionRequired =>
      have ht : e.payload.type = "action_required" := by rw [hp]; rfl
      apply validate_oneOf [heartbeatEventSchema] [actionResolvedEventSchema, terminalEventSchema]
      simp only [List.cons_append, List.nil_append, List.forall_mem_cons]
      exact ⟨event_refused e (hne ht (by decide)) _, event_refused e (hne ht (by decide)) _,
        event_refused e (hne ht (by decide)) _, nofun⟩
    | actionResolved =>
      have ht : e.payload.type = "action_resolved" := by rw [hp]; rfl
      apply validate_oneOf [heartbeatEventSchema, actionRequiredEventSchema] [terminalEventSchema]
      simp only [List.cons_append, List.nil_append, List.forall_mem_cons]
      exact ⟨event_refused e (hne ht (by decide)) _, event_refused e (hne ht (by decide)) _,
        event_refused e (hne ht (by decide)) _, nofun⟩
    | terminal =>
      have ht : e.payload.type = "terminal" := by rw [hp]; rfl
      apply validate_oneOf [heartbeatEventSchema, actionRequiredEventSchema, actionResolvedEventSchema] []
      simp only [List.cons_append, List.nil_append, List.forall_mem_cons]
      exact ⟨event_refused e (hne ht (by decide)) _, event_refused e (hne ht (by decide)) _,
        event_refused e (hne ht (by decide)) _, nofun⟩
  rw [hone, eventSchema_valid]

end

end NotifyHub.Contracts
