/-
  NotifyHub.Contracts.Frames — the JSON of the control frames, in both directions: what
  `JSON.stringify` writes and `JSON.parse` reads back. A member that is `undefined` is
  not written.
-/

import NotifyHub.Contracts.Schemas
import NotifyHub.Control.Types

namespace NotifyHub.Contracts

open Control

/-- `{ [name]: value }`, of a value that is not undefined. -/
def field (name : String) (value : Json) : JsString × Json := (js name, value)

/-- `...(value !== undefined ? { [name]: value } : {})` -/
def optionalField (name : String) (value : Option Json) : List (JsString × Json) :=
  (value.map fun v => field name v).toList

def text (s : String) : Json := .str (js s)

def stringsJson (l : List JsString) : Json := .arr (l.map .str)

/-! ## Interactions -/

def toolJson (t : PendingTool) : Json :=
  .obj [field "messageId" (.str t.messageId), field "callId" (.str t.callId)]

def optionJson (o : PendingQuestionOption) : Json :=
  .obj [field "label" (.str o.label), field "description" (.str o.description)]

def itemJson (i : PendingQuestionItem) : Json :=
  .obj [field "header" (.str i.header), field "question" (.str i.question),
    field "options" (.arr (i.options.map optionJson)), field "multiple" (.bool i.multiple),
    field "custom" (.bool i.custom)]

def sourceMembers (i : PendingInteraction) : List (JsString × Json) :=
  [field "instanceId" (.str i.instanceId), field "machine" (.str i.machine), field "project" (.str i.project),
    field "directory" (.str i.directory), field "sessionId" (.str i.sessionId),
    field "sessionTitle" (.str i.sessionTitle), field "requestId" (.str i.requestId),
    field "occurredAt" (.str i.occurredAt)]

def bodyMembers : InteractionBody → List (JsString × Json)
  | .question questions => [field "kind" (text "question"), field "questions" (.arr (questions.map itemJson))]
  | .permission permission patterns always metadata =>
    [field "kind" (text "permission"), field "permission" (.str permission), field "patterns" (stringsJson patterns),
      field "always" (stringsJson always), field "metadata" (.obj metadata)]

def interactionJson (i : PendingInteraction) : Json :=
  .obj (sourceMembers i ++ bodyMembers i.body ++ optionalField "tool" (i.tool.map toolJson))

/-! ## Frames of a plugin -/

def statusText : CommandStatus → String
  | .confirmed => "confirmed"
  | .stale => "stale"
  | .upstreamError => "upstream_error"
  | .resultUnknown => "result_unknown"

def promptStatusText : PromptCommandStatus → String
  | .confirmed => "confirmed"
  | .upstreamError => "upstream_error"
  | .resultUnknown => "result_unknown"

def catalogStatusText : CatalogStatus → String
  | .ready => "ready"
  | .error => "error"
  | .unsupported => "unsupported"

def sessionStatusText : CatalogSessionStatus → String
  | .idle => "idle"
  | .busy => "busy"
  | .retry => "retry"
  | .unknown => "unknown"

def sessionJson (s : CatalogSession) : Json :=
  .obj [field "sessionId" (.str s.sessionId), field "title" (.str s.title), field "directory" (.str s.directory),
    field "updatedAt" (.str s.updatedAt), field "status" (text (sessionStatusText s.status))]

def catalogJson (c : SessionCatalog) : Json :=
  .obj [field "sessions" (.arr (c.sessions.map sessionJson)), field "hasMore" (.bool c.hasMore)]

def headersJson (headers : List (JsString × List JsString)) : Json := .obj (headers.map fun h => (h.1, stringsJson h.2))

/-- A response frame's own members, after its type. -/
def partMembers : WebUiResponsePart → List (JsString × Json)
  | .start status headers => [field "status" (.num status 0), field "headers" (headersJson headers)]
  | .chunk body => [field "body" (.str body)]
  | .end => []

def partType : WebUiResponsePart → String
  | .start .. => "webui_http_response_start"
  | .chunk _ => "webui_http_response_chunk"
  | .end => "webui_http_response_end"

def resultMembers (type status : String) (commandId instanceId : JsString) : List (JsString × Json) :=
  [field "type" (text type), field "commandId" (.str commandId), field "instanceId" (.str instanceId),
    field "status" (text status)]

/-- The members of a frame a plugin sends. -/
def clientFrame : ClientMessage → List (JsString × Json)
  | .register r =>
    [field "type" (text "register"), field "instanceId" (.str r.instanceId), field "machine" (.str r.machine),
      field "project" (.str r.project), field "directory" (.str r.directory),
      field "openCodeVersion" (.str r.openCodeVersion)] ++
      optionalField "webUiAvailable" (r.webUiAvailable.map .bool) ++
        [field "protocolVersion" (.num r.protocolVersion 0)]
  | .pendingSnapshotResponse requestId instanceId interactions =>
    [field "type" (text "pending_snapshot_response"), field "requestId" (.str requestId),
      field "instanceId" (.str instanceId), field "interactions" (.arr (interactions.map interactionJson))]
  | .questionAnswerResult commandId instanceId status =>
    resultMembers "question_answer_result" (statusText status) commandId instanceId
  | .permissionDecideResult commandId instanceId status =>
    resultMembers "permission_decide_result" (statusText status) commandId instanceId
  | .sessionPromptResult commandId instanceId status =>
    resultMembers "session_prompt_result" (promptStatusText status) commandId instanceId
  | .webUiResponse tunnelId requestId part =>
    [field "type" (text (partType part)), field "tunnelId" (.str tunnelId), field "requestId" (.str requestId)] ++
      partMembers part
  | .sessionCatalogResponse requestId instanceId status catalog =>
    [field "type" (text "session_catalog_response"), field "requestId" (.str requestId),
      field "instanceId" (.str instanceId), field "status" (text (catalogStatusText status))] ++
      optionalField "catalog" (catalog.map catalogJson)

/-! ## Frames of the gateway -/

def stateText : InstanceState → String
  | .controllable => "controllable"
  | .conflicting => "conflicting"
  | .incompatible => "incompatible"
  | .offline => "offline"

def decisionText : PermissionDecision → String
  | .once => "once"
  | .reject => "reject"
  | .always => "always"

def answersJson (answers : QuestionAnswers) : Json := .arr (answers.map stringsJson)

def queryJson (q : SessionCatalogQuery) : Json :=
  .obj (optionalField "search" (q.search.map .str) ++ optionalField "limit" (q.limit.map fun (n : Nat) => .num n 0) ++
    optionalField "sessionIds" (q.sessionIds.map .str))

/-- The members of a frame the gateway sends. -/
def serverFrame : ServerMessage → List (JsString × Json)
  | .registration instanceId state =>
    [field "type" (text "registration"), field "instanceId" (.str instanceId), field "state" (text (stateText state))]
  | .pendingSnapshotRequest requestId =>
    [field "type" (text "pending_snapshot_request"), field "requestId" (.str requestId)]
  | .questionAnswerCommand commandId requestId sessionID answers =>
    [field "type" (text "question_answer_command"), field "commandId" (.str commandId),
      field "requestId" (.str requestId), field "sessionID" (.str sessionID), field "answers" (answersJson answers)]
  | .permissionDecideCommand commandId requestId sessionID decision =>
    [field "type" (text "permission_decide_command"), field "commandId" (.str commandId),
      field "requestId" (.str requestId), field "sessionID" (.str sessionID),
      field "decision" (text (decisionText decision))]
  | .sessionPromptCommand commandId sessionID prompt =>
    [field "type" (text "session_prompt_command"), field "commandId" (.str commandId),
      field "sessionID" (.str sessionID), field "text" (.str prompt)]
  | .webUiHttpRequest tunnelId requestId method path headers body =>
    [field "type" (text "webui_http_request"), field "tunnelId" (.str tunnelId), field "requestId" (.str requestId),
      field "method" (.str method), field "path" (.str path), field "headers" (.obj headers)] ++
      optionalField "body" (body.map .str)
  | .webUiHttpCancel tunnelId requestId =>
    [field "type" (text "webui_http_cancel"), field "tunnelId" (.str tunnelId), field "requestId" (.str requestId)]
  | .webUiTunnelClose tunnelId => [field "type" (text "webui_tunnel_close"), field "tunnelId" (.str tunnelId)]
  | .sessionCatalogRequest requestId query =>
    [field "type" (text "session_catalog_request"), field "requestId" (.str requestId), field "query" (queryJson query)]

/-! ## Tags -/

section
variable {dateTime : JsString → Bool}

theorem validate_tag {t u : String} : (tag t).validate dateTime (text u) = true ↔ js u = js t := by
  rw [tag, Schema.validate_enum]
  simp [text]

/-- An object with another text in the place of a tag is refused. -/
theorem refuses_tag {ms : List (JsString × Json)} {name u : String} (hm : field name (text u) ∈ ms) {t : String}
    (hne : js u ≠ js t) {required : List String} {properties : List (String × Schema)}
    (hn : (properties.map fun p => js p.1).Nodup) (h : (name, tag t) ∈ properties) :
    (Schema.object required properties).validate dateTime (.obj ms) = false := by
  refine Schema.validate_object_of_member hm ?_
  rw [Schema.validateNamed_of_mem hn h, Bool.eq_false_iff, Ne, validate_tag]
  exact hne

end

end NotifyHub.Contracts
