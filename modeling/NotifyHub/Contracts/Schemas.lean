/-
  NotifyHub.Contracts.Schemas — the schemas of packages/contracts/src/schemas that the
  gateway checks command bodies and plugin frames with: questions.ts, permissions.ts,
  commands.ts, pending.ts, sessions.ts and control.ts, under the source's names.
-/

import NotifyHub.Lib.Schema

namespace NotifyHub.Contracts

open Schema

def nonEmptyString : Schema := string 1 none none

def uuidString : Schema := string 0 none (some .uuid)

def dateTimeString : Schema := string 0 none (some .dateTime)

def anyString : Schema := string 0 none none

/-- `{ const: text }` -/
def tag (text : String) : Schema := enum [text]

/-! ## Bodies of commands -/

def questionAnswersSchema : Schema := array 1 none (array 1 none nonEmptyString)

def questionCommandStatusSchema : Schema := enum ["confirmed", "stale", "upstream_error", "result_unknown"]

def answerQuestionBodySchema : Schema :=
  object ["commandId", "sessionId", "answers"]
    [("commandId", uuidString), ("sessionId", nonEmptyString), ("answers", questionAnswersSchema)]

def permissionDecisionSchema : Schema := enum ["once", "reject", "always"]

def permissionCommandStatusSchema : Schema := enum ["confirmed", "stale", "upstream_error", "result_unknown"]

def decidePermissionBodySchema : Schema :=
  object ["commandId", "sessionId", "decision"]
    [("commandId", uuidString), ("sessionId", nonEmptyString), ("decision", permissionDecisionSchema)]

def sendPromptBodySchema : Schema :=
  object ["commandId", "text"] [("commandId", uuidString), ("text", string 1 (some 32000) none)]

def promptCommandStatusSchema : Schema := enum ["confirmed", "upstream_error", "result_unknown"]

/-! ## Pending interactions -/

def toolSchema : Schema :=
  object ["messageId", "callId"] [("messageId", nonEmptyString), ("callId", nonEmptyString)]

def pendingQuestionOptionSchema : Schema :=
  object ["label", "description"] [("label", nonEmptyString), ("description", anyString)]

def pendingQuestionItemSchema : Schema :=
  object ["header", "question", "options", "multiple", "custom"]
    [("header", nonEmptyString), ("question", nonEmptyString), ("options", array 0 none pendingQuestionOptionSchema),
      ("multiple", boolean), ("custom", boolean)]

def pendingPermissionContent : List (String × Schema) :=
  [("permission", nonEmptyString), ("patterns", array 0 none nonEmptyString), ("always", array 0 none nonEmptyString),
    ("metadata", dict any), ("tool", toolSchema)]

def pendingPermissionContentRequired : List String := ["permission", "patterns", "always", "metadata"]

def pendingSourceProperties : List (String × Schema) :=
  [("instanceId", uuidString), ("machine", nonEmptyString), ("project", nonEmptyString),
    ("directory", nonEmptyString), ("sessionId", nonEmptyString), ("sessionTitle", anyString),
    ("requestId", nonEmptyString), ("occurredAt", dateTimeString)]

def pendingSourceRequired : List String :=
  ["instanceId", "machine", "project", "directory", "sessionId", "sessionTitle", "requestId", "occurredAt"]

def pendingQuestionInteractionSchema : Schema :=
  object (pendingSourceRequired ++ ["kind", "questions"])
    (pendingSourceProperties ++
      [("kind", tag "question"), ("tool", toolSchema), ("questions", array 1 none pendingQuestionItemSchema)])

def pendingPermissionInteractionSchema : Schema :=
  object (pendingSourceRequired ++ "kind" :: pendingPermissionContentRequired)
    (pendingSourceProperties ++ ("kind", tag "permission") :: pendingPermissionContent)

def pendingInteractionSchema : Schema :=
  oneOf [pendingQuestionInteractionSchema, pendingPermissionInteractionSchema]

/-! ## Sessions -/

def catalogSessionSchema : Schema :=
  object ["sessionId", "title", "directory", "updatedAt", "status"]
    [("sessionId", string 1 (some 200) none), ("title", string 0 (some 1000) none),
      ("directory", string 1 (some 4096) none), ("updatedAt", dateTimeString),
      ("status", enum ["idle", "busy", "retry", "unknown"])]

def sessionCatalogSchema : Schema :=
  object ["sessions", "hasMore"] [("sessions", array 0 (some 250) catalogSessionSchema), ("hasMore", boolean)]

/-! ## Frames of a plugin -/

def webUiHeadersSchema : Schema := dict (array 0 none anyString)

def webUiBodySchema : Schema := string 0 (some 700000) none

def pluginRegistrationSchema : Schema :=
  object ["type", "instanceId", "machine", "project", "directory", "openCodeVersion", "protocolVersion"]
    [("type", tag "register"), ("instanceId", uuidString), ("machine", nonEmptyString), ("project", nonEmptyString),
      ("directory", nonEmptyString), ("openCodeVersion", nonEmptyString), ("webUiAvailable", boolean),
      ("protocolVersion", integer (some 1) none)]

def pendingSnapshotResponseSchema : Schema :=
  object ["type", "requestId", "instanceId", "interactions"]
    [("type", tag "pending_snapshot_response"), ("requestId", uuidString), ("instanceId", uuidString),
      ("interactions", array 0 none pendingInteractionSchema)]

/-- The schemas of the three result frames, which differ in their tag and their status. -/
def commandResultSchema (type : String) (status : Schema) : Schema :=
  object ["type", "commandId", "instanceId", "status"]
    [("type", tag type), ("commandId", uuidString), ("instanceId", uuidString), ("status", status)]

def questionAnswerResultSchema : Schema := commandResultSchema "question_answer_result" questionCommandStatusSchema

def permissionDecideResultSchema : Schema :=
  commandResultSchema "permission_decide_result" permissionCommandStatusSchema

def sessionPromptResultSchema : Schema := commandResultSchema "session_prompt_result" promptCommandStatusSchema

def webUiHttpResponseStartSchema : Schema :=
  object ["type", "tunnelId", "requestId", "status", "headers"]
    [("type", tag "webui_http_response_start"), ("tunnelId", uuidString), ("requestId", uuidString),
      ("status", integer (some 100) (some 599)), ("headers", webUiHeadersSchema)]

def webUiHttpResponseChunkSchema : Schema :=
  object ["type", "tunnelId", "requestId", "body"]
    [("type", tag "webui_http_response_chunk"), ("tunnelId", uuidString), ("requestId", uuidString),
      ("body", webUiBodySchema)]

def webUiHttpResponseEndSchema : Schema :=
  object ["type", "tunnelId", "requestId"]
    [("type", tag "webui_http_response_end"), ("tunnelId", uuidString), ("requestId", uuidString)]

def sessionCatalogResponseSchema : Schema :=
  object ["type", "requestId", "instanceId", "status"]
    [("type", tag "session_catalog_response"), ("requestId", uuidString), ("instanceId", uuidString),
      ("status", enum ["ready", "error", "unsupported"]), ("catalog", sessionCatalogSchema)]

def pluginControlClientMessageSchema : Schema :=
  oneOf
    [pluginRegistrationSchema, pendingSnapshotResponseSchema, questionAnswerResultSchema, permissionDecideResultSchema,
      sessionPromptResultSchema, webUiHttpResponseStartSchema, webUiHttpResponseChunkSchema,
      webUiHttpResponseEndSchema, sessionCatalogResponseSchema]

/-! ## Strings -/

section
variable {dateTime : JsString → Bool}

theorem validate_anyString (s : JsString) : anyString.validate dateTime (.str s) = true := by
  simp [anyString, validate]

theorem validate_uuidString {v : Json} :
    uuidString.validate dateTime v = true ↔ ∃ s, v = .str s ∧ uuidFormat s = true := by
  rw [uuidString, validate_string]
  simp [Format.holds]

theorem validate_nonEmptyString {v : Json} :
    nonEmptyString.validate dateTime v = true ↔ ∃ s, v = .str s ∧ s ≠ [] := by
  rw [nonEmptyString, validate_string]
  refine exists_congr fun s => ?_
  simp [Nat.succ_le_iff]

end

end NotifyHub.Contracts
