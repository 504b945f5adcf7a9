/-
  NotifyHub.Plugin.FrameParsers — how the plugin reads the commands of the gateway
  (packages/plugin/src/control-channel.ts, `parsePromptCommand` to `isQuestionAnswers`):
  a frame that does not fit is dropped without a reply.

  Each parser is given what it makes of a frame the gateway wrote (`parseAnswerCommand_frame`
  and its three siblings): the fields that were written, when they pass its own checks.
-/

import NotifyHub.Contracts.Frames
import NotifyHub.Control.Operations
import NotifyHub.Plugin.ControlChannel

namespace NotifyHub.Plugin

open Control Contracts

structure PromptCommand where
  commandId : JsString
  sessionID : JsString
  text : JsString

def parsePromptCommand (frame : List (JsString × Json)) : Option PromptCommand := do
  let commandId ← uuid? (member frame "commandId")
  let sessionID ← asNonEmptyString (member frame "sessionID")
  let text ← (member frame "text").bind Json.str?
  if (trim text).length = 0 ∨ text.length > 32000 then none else some ⟨commandId, sessionID, text⟩

structure WebUiHttpRequest where
  tunnelId : JsString
  requestId : JsString
  method : JsString
  path : JsString
  headers : List (JsString × List JsString)
  body : Option JsString

/-- The loop over `Object.entries(rawHeaders)`; to assign `__proto__` adds no member. -/
def webUiHeaders (rawHeaders : List (JsString × Json)) : Option (List (JsString × List JsString)) :=
  if rawHeaders.all fun h => (Json.strings? h.2).isSome then
    some ((rawHeaders.filter (·.1 ≠ js "__proto__")).filterMap fun h => (Json.strings? h.2).map (h.1, ·))
  else none

def parseWebUiRequest (frame : List (JsString × Json)) : Option WebUiHttpRequest := do
  let tunnelId ← uuid? (member frame "tunnelId")
  let requestId ← uuid? (member frame "requestId")
  let method ← (member frame "method").bind Json.str?
  let path ← (member frame "path").bind Json.str?
  let rawHeaders ← (member frame "headers").bind Json.record?
  let headers ← webUiHeaders rawHeaders
  let body ← httpBody? (member frame "body")
  if method.length = 0 ∨ method.length > 16 ∨ path.length = 0 ∨ path.length > 8192 then none
  else some ⟨tunnelId, requestId, method, path, headers, body⟩

structure DecideCommand where
  commandId : JsString
  requestId : JsString
  sessionID : JsString
  decision : PermissionDecision

def decision? (v : Option Json) : Option PermissionDecision :=
  if isText v (js "once") then some .once
  else if isText v (js "reject") then some .reject
  else if isText v (js "always") then some .always
  else none

def parseDecisionCommand (frame : List (JsString × Json)) : Option DecideCommand := do
  let commandId ← uuid? (member frame "commandId")
  let requestId ← asNonEmptyString (member frame "requestId")
  let sessionID ← asNonEmptyString (member frame "sessionID")
  let decision ← decision? (member frame "decision")
  some ⟨commandId, requestId, sessionID, decision⟩

structure AnswerCommand where
  commandId : JsString
  requestId : JsString
  sessionID : JsString
  answers : QuestionAnswers

/-- `isQuestionAnswers`, with the answers it narrows to. -/
def questionAnswers? (v : Option Json) : Option QuestionAnswers := do
  let outer ← v.bind Json.arr?
  if !outer.isEmpty && outer.all fun answers =>
      (Json.strings? answers).any fun l => !l.isEmpty && l.all fun a => !a.isEmpty then
    some (outer.filterMap Json.strings?)
  else none

def parseAnswerCommand (frame : List (JsString × Json)) : Option AnswerCommand := do
  let commandId ← uuid? (member frame "commandId")
  let requestId ← asNonEmptyString (member frame "requestId")
  let sessionID ← asNonEmptyString (member frame "sessionID")
  let answers ← questionAnswers? (member frame "answers")
  some ⟨commandId, requestId, sessionID, answers⟩

/-! ## Reading what was written -/

@[simp] theorem uuid_str (s : JsString) : uuid? (some (.str s)) = if isUuid s then some s else none := by
  unfold uuid?
  cases h : isUuid s <;> simp [Json.str?, h]

@[simp] theorem asNonEmptyString_str (s : JsString) : asNonEmptyString (some (.str s)) = if s = [] then none
    else some s := by
  cases s <;> simp [asNonEmptyString]

@[simp] theorem strings_stringsJson (l : List JsString) : Json.strings? (stringsJson l) = some l := by
  simp [Json.strings?, stringsJson, Json.arr?, Json.str?, List.filterMap_map, Function.comp_def]

@[simp] theorem decision_text (d : PermissionDecision) : decision? (some (text (decisionText d))) = some d := by
  cases d <;> rfl

@[simp] theorem questionAnswers_json (answers : QuestionAnswers) :
    questionAnswers? (some (answersJson answers)) = if Channel.isQuestionAnswers answers then some answers
      else none := by
  simp [questionAnswers?, answersJson, Json.arr?, Channel.isQuestionAnswers, List.filterMap_map]

theorem isCommand_iff {commandId requestId sessionID : JsString} :
    Channel.isCommand commandId requestId sessionID = true ↔ isUuid commandId = true ∧ requestId ≠ [] ∧
      sessionID ≠ [] := by
  simp [Channel.isCommand, and_assoc]

theorem parseAnswerCommand_frame (commandId requestId sessionID : JsString) (answers : QuestionAnswers) :
    parseAnswerCommand (serverFrame (.questionAnswerCommand commandId requestId sessionID answers)) =
      if Channel.isCommand commandId requestId sessionID && Channel.isQuestionAnswers answers then
        some ⟨commandId, requestId, sessionID, answers⟩
      else none := by
  have hc : member (serverFrame (.questionAnswerCommand commandId requestId sessionID answers)) "commandId" =
      some (.str commandId) := rfl
  have hr : member (serverFrame (.questionAnswerCommand commandId requestId sessionID answers)) "requestId" =
      some (.str requestId) := rfl
  have hs : member (serverFrame (.questionAnswerCommand commandId requestId sessionID answers)) "sessionID" =
      some (.str sessionID) := rfl
  have ha : member (serverFrame (.questionAnswerCommand commandId requestId sessionID answers)) "answers" =
      some (answersJson answers) := rfl
  simp only [parseAnswerCommand, hc, hr, hs, ha, uuid_str, asNonEmptyString_str, questionAnswers_json, Bool.and_eq_true,
    isCommand_iff]
  by_cases h1 : isUuid commandId <;> by_cases h2 : requestId = [] <;> by_cases h3 : sessionID = [] <;>
    by_cases h4 : Channel.isQuestionAnswers answers <;> simp [h1, h2, h3, h4]

theorem parseDecisionCommand_frame (commandId requestId sessionID : JsString) (decision : PermissionDecision) :
    parseDecisionCommand (serverFrame (.permissionDecideCommand commandId requestId sessionID decision)) =
      if Channel.isCommand commandId requestId sessionID then some ⟨commandId, requestId, sessionID, decision⟩
      else none := by
  have hc : member (serverFrame (.permissionDecideCommand commandId requestId sessionID decision)) "commandId" =
      some (.str commandId) := rfl
  have hr : member (serverFrame (.permissionDecideCommand commandId requestId sessionID decision)) "requestId" =
      some (.str requestId) := rfl
  have hs : member (serverFrame (.permissionDecideCommand commandId requestId sessionID decision)) "sessionID" =
      some (.str sessionID) := rfl
  have hd : member (serverFrame (.permissionDecideCommand commandId requestId sessionID decision)) "decision" =
      some (text (decisionText decision)) := rfl
  simp only [parseDecisionCommand, hc, hr, hs, hd, uuid_str, asNonEmptyString_str, decision_text, isCommand_iff]
  by_cases h1 : isUuid commandId <;> by_cases h2 : requestId = [] <;> by_cases h3 : sessionID = [] <;> simp [h1, h2, h3]

/-- What the plugin asks of a prompt. -/
structure IsPrompt (commandId sessionID prompt : JsString) : Prop where
  command : isUuid commandId = true
  session : sessionID ≠ []
  written : trim prompt ≠ []
  short : prompt.length ≤ 32000

theorem parsePromptCommand_frame (commandId sessionID prompt : JsString) :
    (parsePromptCommand (serverFrame (.sessionPromptCommand commandId sessionID prompt))).isSome = true ↔
      IsPrompt commandId sessionID prompt := by
  have hc : member (serverFrame (.sessionPromptCommand commandId sessionID prompt)) "commandId" =
      some (.str commandId) := rfl
  have hs : member (serverFrame (.sessionPromptCommand commandId sessionID prompt)) "sessionID" =
      some (.str sessionID) := rfl
  have ht : member (serverFrame (.sessionPromptCommand commandId sessionID prompt)) "text" = some (.str prompt) := rfl
  simp only [parsePromptCommand, hc, hs, ht, uuid_str, asNonEmptyString_str]
  constructor
  · intro h
    by_cases h1 : isUuid commandId <;> by_cases h2 : sessionID = [] <;> simp [h1, h2, Json.str?] at h
    exact ⟨h1, h2, h.1, h.2⟩
  · intro h
    simp [h.command, h.session, Json.str?, h.written, h.short]

/-- Every header's value is an array of strings. -/
def SoundHeaders (headers : List (JsString × Json)) : Prop := ∀ h ∈ headers, (Json.strings? h.2).isSome = true

theorem webUiHeaders_isSome (headers : List (JsString × Json)) :
    (webUiHeaders headers).isSome = true ↔ SoundHeaders headers := by
  unfold webUiHeaders SoundHeaders
  split
  · rename_i h
    simpa using h
  · rename_i h
    simpa using h

/-- A request the gateway has checked is read if its headers are sound. -/
theorem parseWebUiRequest_frame {ms : List (JsString × Json)} {tunnelId requestId method path : JsString}
    {headers : List (JsString × Json)} {body : Option JsString} (ht : isUuid tunnelId = true)
    (hr : isUuid requestId = true) (hm : method.length ≠ 0 ∧ method.length ≤ 16)
    (hp : path.length ≠ 0 ∧ path.length ≤ 8192) (hb : httpBody? (member ms "body") = some body) :
    (parseWebUiRequest (serverFrame (.webUiHttpRequest tunnelId requestId method path headers body))).isSome = true ↔
      SoundHeaders headers := by
  have hbody : httpBody? (member (serverFrame (.webUiHttpRequest tunnelId requestId method path headers body)) "body") =
      some body := by
    cases body with
    | none => rfl
    | some b =>
      have hlen : ¬ b.length > 700000 := by
        unfold httpBody? at hb
        split at hb
        · cases hb
        · split at hb
          · cases hb
          · cases hb; assumption
        · cases hb
      change (if b.length > 700000 then none else some (some b)) = some (some b)
      rw [if_neg hlen]
  have h1 : member (serverFrame (.webUiHttpRequest tunnelId requestId method path headers body)) "tunnelId" =
      some (.str tunnelId) := rfl
  have h2 : member (serverFrame (.webUiHttpRequest tunnelId requestId method path headers body)) "requestId" =
      some (.str requestId) := rfl
  have h3 : member (serverFrame (.webUiHttpRequest tunnelId requestId method path headers body)) "method" =
      some (.str method) := rfl
  have h4 : member (serverFrame (.webUiHttpRequest tunnelId requestId method path headers body)) "path" =
      some (.str path) := rfl
  have h5 : member (serverFrame (.webUiHttpRequest tunnelId requestId method path headers body)) "headers" =
      some (.obj headers) := rfl
  have hsizes : ¬ (method.length = 0 ∨ method.length > 16 ∨ path.length = 0 ∨ path.length > 8192) := by omega
  rw [← webUiHeaders_isSome]
  simp only [parseWebUiRequest, h1, h2, h3, h4, h5, hbody, uuid_str, ht, hr, if_true, Json.str?, Json.record?,
    Option.bind_some, Option.bind_eq_bind, if_neg hsizes]
  cases webUiHeaders headers <;> rfl

end NotifyHub.Plugin
