/-
  NotifyHub.Plugin.Normalize — `normalizeEvent` (packages/plugin/src/events.ts).

  What comes out of it is sound (`normalize_sound`): ids, names, question texts and labels
  are never empty, and a summary is never empty.
-/

import NotifyHub.Plugin.Events

namespace NotifyHub.Plugin

def PERMISSION_SUMMARY_MAX_LENGTH : Nat := 200

/-- `…` -/
def ellipsis : UInt16 := 0x2026

/-- `asFiniteNumber(v) !== null` -/
def isFiniteNumber : Option Json → Bool
  | some (.num _ _) => true
  | _ => false

/-- A property that is a record. -/
def recordMember (ms : List (JsString × Json)) (name : String) : Option (List (JsString × Json)) :=
  (member ms name).bind Json.record?

/-- A property that is a string. -/
def stringMember (ms : List (JsString × Json)) (name : String) : Option JsString := (member ms name).bind Json.str?

/-- A property that is a nonempty string. -/
def textMember (ms : List (JsString × Json)) (name : String) : Option JsString := asNonEmptyString (member ms name)

def errorOutcome (error : Option Json) : ErrorOutcome :=
  match (error.bind Json.record?).bind fun ms => stringMember ms "name" with
  | some name => if name = js "MessageAbortedError" ∨ name = js "AbortError" then .stopped else .failed
  | none => .failed

/-- `[\x00-\x1F\x7F]` -/
def isControl (c : UInt16) : Bool := c < 32 || c == 127

/-- Each run of characters that are `p` becomes one space. -/
def replaceRuns (p : UInt16 → Bool) : JsString → JsString
  | [] => []
  | c :: s =>
    if p c then
      match s with
      | [] => [32]
      | d :: _ => if p d then replaceRuns p s else 32 :: replaceRuns p s
    else c :: replaceRuns p s

def sanitizePattern (pattern : Json) : Option JsString := do
  let s ← pattern.str?
  let cleaned := trim (replaceRuns isSpace (replaceRuns isControl s))
  if cleaned.length > 0 then some cleaned else none

/-- `list.join(", ")` -/
def joinComma : List JsString → JsString
  | [] => []
  | [s] => s
  | s :: l => s ++ js ", " ++ joinComma l

def buildPermissionSummary (permission : JsString) (patterns : Option Json) : JsString :=
  let list :=
    match patterns with
    | none => []
    | some (.arr l) => l
    | some v => [v]
  let sanitized := list.filterMap sanitizePattern
  let summary := if sanitized.length > 0 then permission ++ js ": " ++ joinComma sanitized else permission
  if summary.length ≤ PERMISSION_SUMMARY_MAX_LENGTH then summary
  else summary.take (PERMISSION_SUMMARY_MAX_LENGTH - 1) ++ [ellipsis]

/-- `readSessionInfo`: `info`, or the properties themselves. -/
def readSessionInfo (properties : List (JsString × Json)) : Option (List (JsString × Json)) :=
  match recordMember properties "info" with
  | some info => some info
  | none => (stringMember properties "id").map fun _ => properties

def isArchived (info : List (JsString × Json)) : Bool :=
  match (recordMember info "time").bind fun time => member time "archived" with
  | some (.num mantissa _) => 0 < mantissa
  | _ => false

/-- `normalizeSessionUpsert`, of a created, updated or deleted session. -/
def normalizeSessionUpsert (deleted : Bool) (properties : List (JsString × Json)) : Option NormalizedEvent := do
  let info ← readSessionInfo properties
  let sessionID ← textMember info "id"
  some (.session deleted sessionID (textMember info "parentID") ((stringMember info "title").getD [])
    (stringMember info "directory") (isArchived info))

def normalizeRetryAction (action : Option Json) : Option RetryActionInfo := do
  let ms ← action.bind Json.record?
  let provider ← textMember ms "provider"
  let title ← textMember ms "title"
  let message ← textMember ms "message"
  let label ← textMember ms "label"
  some ⟨textMember ms "reason", provider, title, message, label, textMember ms "link"⟩

def normalizeSessionStatus (properties : List (JsString × Json)) : Option NormalizedEvent := do
  let sessionID ← textMember properties "sessionID"
  let status ← recordMember properties "status"
  let type ← stringMember status "type"
  if type = js "busy" then some (.status sessionID .busy none)
  else if type = js "idle" then some (.status sessionID .idle none)
  else if type = js "retry" then
    if isFiniteNumber (member status "attempt") && isFiniteNumber (member status "next") then
      some (.status sessionID .retry (normalizeRetryAction (member status "action")))
    else none
  else none

def normalizeSessionIdle (properties : List (JsString × Json)) : Option NormalizedEvent := do
  let sessionID ← textMember properties "sessionID"
  some (.status sessionID .idle none)

def normalizeSessionError (properties : List (JsString × Json)) : NormalizedEvent :=
  .error (textMember properties "sessionID") (errorOutcome (member properties "error"))

def normalizeMessage (properties : List (JsString × Json)) : Option NormalizedEvent := do
  let info ← recordMember properties "info"
  let sessionID ← textMember info "sessionID"
  let messageID ← textMember info "id"
  let role ← stringMember info "role"
  if role = js "user" then some (.message sessionID messageID .user none)
  else if role = js "assistant" then
    some (.message sessionID messageID .assistant ((member info "error").map fun e => errorOutcome (some e)))
  else none

def normalizeMessagePart (properties : List (JsString × Json)) : Option NormalizedEvent := do
  let part ← recordMember properties "part"
  let type ← stringMember part "type"
  if type = js "text" then
    let sessionID ← textMember part "sessionID"
    let messageID ← textMember part "messageID"
    let partID ← textMember part "id"
    let text ← stringMember part "text"
    some (.messageText sessionID messageID partID text)
  else none

def normalizeOption (option : Json) : Option JsString := do
  let ms ← option.record?
  textMember ms "label"

def normalizeQuestion (question : Json) : Option NormalizedQuestion := do
  let ms ← question.record?
  let text ← textMember ms "question"
  let options := ((member ms "options").bind Json.arr?).getD []
  some ⟨text, options.filterMap normalizeOption, (member ms "multiple").bind Json.bool?⟩

def normalizeQuestionAsked (properties : List (JsString × Json)) : Option NormalizedEvent := do
  let sessionID ← textMember properties "sessionID"
  let requestID ← textMember properties "id"
  let raw ← (member properties "questions").bind Json.arr?
  let questions := raw.filterMap normalizeQuestion
  if questions.length = 0 then none else some (.questionAsked sessionID requestID questions)

/-- `normalizeResolved`, with what it makes of the ids. -/
def normalizeResolved (resolved : JsString → JsString → NormalizedEvent) (properties : List (JsString × Json)) :
    Option NormalizedEvent := do
  let sessionID ← textMember properties "sessionID"
  let requestID ← (textMember properties "requestID").or (textMember properties "permissionID")
  some (resolved sessionID requestID)

def normalizePermissionAsked (properties : List (JsString × Json)) : Option NormalizedEvent := do
  let sessionID ← textMember properties "sessionID"
  let requestID ← textMember properties "id"
  let permission ← (textMember properties "permission").or (textMember properties "type")
  let patterns := (member properties "patterns").or (member properties "pattern")
  some (.permissionAsked sessionID requestID permission (buildPermissionSummary permission patterns))

def normalizeEvent (event : Json) : Option NormalizedEvent := do
  let ms ← event.record?
  let type ← stringMember ms "type"
  let properties ← recordMember ms "properties"
  if type = js "session.created" ∨ type = js "session.updated" then normalizeSessionUpsert false properties
  else if type = js "session.deleted" then normalizeSessionUpsert true properties
  else if type = js "session.status" then normalizeSessionStatus properties
  else if type = js "session.idle" then normalizeSessionIdle properties
  else if type = js "session.error" then some (normalizeSessionError properties)
  else if type = js "message.updated" then normalizeMessage properties
  else if type = js "message.part.updated" then normalizeMessagePart properties
  else if type = js "question.asked" then normalizeQuestionAsked properties
  else if type = js "question.replied" ∨ type = js "question.rejected" then
    normalizeResolved .questionResolved properties
  else if type = js "permission.asked" ∨ type = js "permission.updated" then normalizePermissionAsked properties
  else if type = js "permission.replied" then normalizeResolved .permissionResolved properties
  else none

/-! ## What comes out is sound -/

structure RetryActionInfo.Sound (a : RetryActionInfo) : Prop where
  provider : a.provider ≠ []
  title : a.title ≠ []
  message : a.message ≠ []
  label : a.label ≠ []

def NormalizedQuestion.Sound (q : NormalizedQuestion) : Prop := q.question ≠ [] ∧ ∀ label ∈ q.options, label ≠ []

def NormalizedEvent.Sound : NormalizedEvent → Prop
  | .session _ sessionID .. => sessionID ≠ []
  | .status sessionID _ action => sessionID ≠ [] ∧ ∀ a, action = some a → a.Sound
  | .error sessionID _ => ∀ s, sessionID = some s → s ≠ []
  | .message sessionID .. => sessionID ≠ []
  | .messageText sessionID .. => sessionID ≠ []
  | .questionAsked sessionID requestID questions =>
    sessionID ≠ [] ∧ requestID ≠ [] ∧ questions ≠ [] ∧ ∀ q ∈ questions, q.Sound
  | .questionResolved sessionID requestID => sessionID ≠ [] ∧ requestID ≠ []
  | .permissionAsked sessionID requestID permission summary =>
    sessionID ≠ [] ∧ requestID ≠ [] ∧ permission ≠ [] ∧ summary ≠ []
  | .permissionResolved sessionID requestID => sessionID ≠ [] ∧ requestID ≠ []

theorem textMember_ne {ms : List (JsString × Json)} {name : String} {s : JsString} (h : textMember ms name = some s) :
    s ≠ [] :=
  (asNonEmptyString_eq_some.mp h).2

theorem or_textMember_ne {ms : List (JsString × Json)} {name name' : String} {s : JsString}
    (h : (textMember ms name).or (textMember ms name') = some s) : s ≠ [] := by
  rcases Option.or_eq_some_iff.mp h with h | ⟨_, h⟩
  · exact textMember_ne h
  · exact textMember_ne h

theorem summary_ne {permission : JsString} (h : permission ≠ []) (patterns : Option Json) :
    buildPermissionSummary permission patterns ≠ [] := by
  have hcut : ∀ s : JsString, s ≠ [] → (if s.length ≤ PERMISSION_SUMMARY_MAX_LENGTH then s
      else s.take (PERMISSION_SUMMARY_MAX_LENGTH - 1) ++ [ellipsis]) ≠ [] := by
    intro s hs
    split
    · exact hs
    · simp
  have hjoin : ∀ l : List JsString, (if l.length > 0 then permission ++ js ": " ++ joinComma l else permission) ≠
    [] := by
    intro l
    split
    · simp [h]
    · exact h
  exact hcut _ (hjoin _)

theorem retryAction_sound {v : Option Json} {a : RetryActionInfo} (h : normalizeRetryAction v = some a) : a.Sound := by
  simp only [normalizeRetryAction, Option.bind_eq_bind, Option.bind_eq_some_iff] at h
  obtain ⟨ms, -, provider, hp, title, ht, message, hm, label, hl, h⟩ := h
  cases h
  exact ⟨textMember_ne hp, textMember_ne ht, textMember_ne hm, textMember_ne hl⟩

theorem question_sound {v : Json} {q : NormalizedQuestion} (h : normalizeQuestion v = some q) : q.Sound := by
  simp only [normalizeQuestion, Option.bind_eq_bind, Option.bind_eq_some_iff] at h
  obtain ⟨ms, -, text, ht, h⟩ := h
  cases h
  refine ⟨textMember_ne ht, fun label hlabel => ?_⟩
  obtain ⟨raw, -, hraw⟩ := List.mem_filterMap.mp hlabel
  simp only [normalizeOption, Option.bind_eq_bind, Option.bind_eq_some_iff] at hraw
  obtain ⟨_, -, hraw⟩ := hraw
  exact textMember_ne hraw

theorem sessionStatus_sound {ms : List (JsString × Json)} {e : NormalizedEvent}
    (h : normalizeSessionStatus ms = some e) :
    e.Sound := by
  simp only [normalizeSessionStatus, Option.bind_eq_bind, Option.bind_eq_some_iff] at h
  obtain ⟨sessionID, hid, status, -, type, -, h⟩ := h
  have hid := textMember_ne hid
  split at h
  · cases h
    exact ⟨hid, nofun⟩
  · split at h
    · cases h
      exact ⟨hid, nofun⟩
    · split at h
      · split at h
        · cases h
          exact ⟨hid, fun a ha => retryAction_sound ha⟩
        · cases h
      · cases h

theorem message_sound {ms : List (JsString × Json)} {e : NormalizedEvent} (h : normalizeMessage ms = some e) :
    e.Sound := by
  simp only [normalizeMessage, Option.bind_eq_bind, Option.bind_eq_some_iff] at h
  obtain ⟨info, -, sessionID, hid, messageID, -, role, -, h⟩ := h
  split at h
  · cases h
    exact textMember_ne hid
  · split at h
    · cases h
      exact textMember_ne hid
    · cases h

theorem messagePart_sound {ms : List (JsString × Json)} {e : NormalizedEvent} (h : normalizeMessagePart ms = some e) :
    e.Sound := by
  simp only [normalizeMessagePart, Option.bind_eq_bind, Option.bind_eq_some_iff] at h
  obtain ⟨part, -, type, -, h⟩ := h
  split at h
  · simp only [Option.bind_eq_some_iff] at h
    obtain ⟨sessionID, hid, messageID, -, partID, -, text, -, h⟩ := h
    cases h
    exact textMember_ne hid
  · cases h

theorem questionAsked_sound {ms : List (JsString × Json)} {e : NormalizedEvent}
    (h : normalizeQuestionAsked ms = some e) :
    e.Sound := by
  simp only [normalizeQuestionAsked, Option.bind_eq_bind, Option.bind_eq_some_iff] at h
  obtain ⟨sessionID, hid, requestID, hrequest, raw, -, h⟩ := h
  split at h
  · cases h
  · rename_i hlen
    cases h
    refine ⟨textMember_ne hid, textMember_ne hrequest, fun hnil => hlen (by rw [hnil]; rfl), fun q hq => ?_⟩
    obtain ⟨v, -, hv⟩ := List.mem_filterMap.mp hq
    exact question_sound hv

theorem permissionAsked_sound {ms : List (JsString × Json)} {e : NormalizedEvent}
    (h : normalizePermissionAsked ms = some e) :
    e.Sound := by
  simp only [normalizePermissionAsked, Option.bind_eq_bind, Option.bind_eq_some_iff] at h
  obtain ⟨sessionID, hid, requestID, hrequest, permission, hpermission, h⟩ := h
  cases h
  have hpermission := or_textMember_ne hpermission
  exact ⟨textMember_ne hid, textMember_ne hrequest, hpermission, summary_ne hpermission _⟩

theorem resolved_ids {resolved : JsString → JsString → NormalizedEvent} {ms : List (JsString × Json)}
    {e : NormalizedEvent}
    (h : normalizeResolved resolved ms = some e) : ∃ sessionID requestID, sessionID ≠ [] ∧
      requestID ≠ [] ∧ resolved sessionID requestID = e := by
  simp only [normalizeResolved, Option.bind_eq_bind, Option.bind_eq_some_iff] at h
  obtain ⟨sessionID, hid, requestID, hrequest, h⟩ := h
  exact ⟨sessionID, requestID, textMember_ne hid, or_textMember_ne hrequest, Option.some.inj h⟩

theorem upsert_sound {deleted : Bool} {ms : List (JsString × Json)} {e : NormalizedEvent}
    (h : normalizeSessionUpsert deleted ms = some e) : e.Sound := by
  simp only [normalizeSessionUpsert, Option.bind_eq_bind, Option.bind_eq_some_iff] at h
  obtain ⟨info, -, sessionID, hid, h⟩ := h
  cases h
  exact textMember_ne hid

theorem normalize_sound {event : Json} {e : NormalizedEvent} (h : normalizeEvent event = some e) : e.Sound := by
  simp only [normalizeEvent, Option.bind_eq_bind, Option.bind_eq_some_iff] at h
  obtain ⟨ms, -, type, -, properties, -, h⟩ := h
  split at h
  · exact upsert_sound h
  split at h
  · exact upsert_sound h
  split at h
  · exact sessionStatus_sound h
  split at h
  · simp only [normalizeSessionIdle, Option.bind_eq_bind, Option.bind_eq_some_iff] at h
    obtain ⟨sessionID, hid, h⟩ := h
    cases h
    exact ⟨textMember_ne hid, nofun⟩
  split at h
  · cases h
    exact fun s hs => textMember_ne hs
  split at h
  · exact message_sound h
  split at h
  · exact messagePart_sound h
  split at h
  · exact questionAsked_sound h
  split at h
  · obtain ⟨sessionID, requestID, hid, hrequest, rfl⟩ := resolved_ids h
    exact ⟨hid, hrequest⟩
  split at h
  · exact permissionAsked_sound h
  split at h
  · obtain ⟨sessionID, requestID, hid, hrequest, rfl⟩ := resolved_ids h
    exact ⟨hid, hrequest⟩
  · cases h

end NotifyHub.Plugin
