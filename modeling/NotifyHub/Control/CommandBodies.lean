/-
  NotifyHub.Control.CommandBodies — the bodies of the three command routes
  (apps/gateway/src/modules/control/pending-interactions.routes.ts and
  session-control.routes.ts): what passes the contract's schema, read into the fields the
  registry is called with.

  A body that passes can be read (`answerQuestionBody_of_valid` and its siblings), and the
  fields of one that was read are what the schema promises (`answerQuestionBody_spec` and
  its siblings).
-/

import NotifyHub.Contracts.Schemas
import NotifyHub.Control.Operations

namespace NotifyHub.Control

open Schema Contracts

structure AnswerQuestionBody where
  commandId : JsString
  sessionId : JsString
  answers : QuestionAnswers
  deriving DecidableEq

structure DecidePermissionBody where
  commandId : JsString
  sessionId : JsString
  decision : PermissionDecision
  deriving DecidableEq

structure SendPromptBody where
  commandId : JsString
  text : JsString
  deriving DecidableEq

/-- `body.name`, of a member that is a string. -/
def memberText (ms : List (JsString × Json)) (name : String) : Option JsString := (member ms name).bind Json.str?

def memberAnswers (ms : List (JsString × Json)) (name : String) : Option QuestionAnswers :=
  ((member ms name).bind Json.arr?).map fun l => l.filterMap Json.strings?

/-- The decision a text names. -/
def decisionOf (text : JsString) : PermissionDecision :=
  if text = js "once" then .once else if text = js "reject" then .reject else .always

variable (dateTime : JsString → Bool)

/-- The members of a body that passes the schema. -/
def validated (schema : Schema) (body : Json) : Option (List (JsString × Json)) :=
  if schema.validate dateTime body then body.record? else none

def answerQuestionBody (body : Json) : Option AnswerQuestionBody := do
  let ms ← validated dateTime answerQuestionBodySchema body
  let commandId ← memberText ms "commandId"
  let sessionId ← memberText ms "sessionId"
  let answers ← memberAnswers ms "answers"
  some ⟨commandId, sessionId, answers⟩

def decidePermissionBody (body : Json) : Option DecidePermissionBody := do
  let ms ← validated dateTime decidePermissionBodySchema body
  let commandId ← memberText ms "commandId"
  let sessionId ← memberText ms "sessionId"
  let decision ← memberText ms "decision"
  some ⟨commandId, sessionId, decisionOf decision⟩

def sendPromptBody (body : Json) : Option SendPromptBody := do
  let ms ← validated dateTime sendPromptBodySchema body
  let commandId ← memberText ms "commandId"
  let text ← memberText ms "text"
  some ⟨commandId, text⟩

/-! ## What a valid body holds -/

variable {dateTime}

/-- A complete answer set: a non-empty list of non-empty lists of non-empty texts. -/
def Complete (answers : QuestionAnswers) : Prop := answers ≠ [] ∧ ∀ l ∈ answers, l ≠ [] ∧ ∀ s ∈ l, s ≠ []

theorem validate_questionAnswers {v : Json} :
    questionAnswersSchema.validate dateTime v = true ↔
      ∃ answers : QuestionAnswers, v = .arr (answers.map fun l => .arr (l.map .str)) ∧ Complete answers := by
  have inner : ∀ v : Json, (array 1 none nonEmptyString).validate dateTime v = true ↔
      ∃ l : List JsString, v = .arr (l.map .str) ∧ l ≠ [] ∧ ∀ s ∈ l, s ≠ [] := by
    intro v
    rw [validate_array_of fun v => validate_nonEmptyString]
    refine exists_congr fun l => ?_
    simp [Nat.succ_le_iff, List.length_pos_iff]
  rw [questionAnswersSchema, validate_array_of inner]
  refine exists_congr fun answers => ?_
  simp [Complete, Nat.succ_le_iff, List.length_pos_iff]

theorem memberAnswers_eq {ms : List (JsString × Json)} {name : String} {answers : QuestionAnswers}
    (h : member ms name = some (.arr (answers.map fun l => .arr (l.map .str)))) :
    memberAnswers ms name = some answers := by
  rw [memberAnswers, h]
  simp only [Option.bind_some, Json.arr?, Option.map_some]
  rw [Json.filterMap_read fun l => Json.strings_eq_some.mpr rfl]

theorem validate_decision {v : Json} :
    permissionDecisionSchema.validate dateTime v = true ↔ ∃ t ∈ ["once", "reject", "always"], v = .str (js t) :=
  validate_enum

/-- A valid body is an object. -/
theorem validated_of_valid {required : List String} {properties : List (String × Schema)} {body : Json}
    (h : (object required properties).validate dateTime body = true) :
    ∃ ms, body = .obj ms ∧ validated dateTime (object required properties) body = some ms := by
  obtain ⟨ms, rfl, -⟩ := validate_object.mp h
  exact ⟨ms, rfl, by rw [validated, if_pos h]; rfl⟩

theorem valid_of_validated {schema : Schema} {body : Json} {ms : List (JsString × Json)}
    (h : validated dateTime schema body = some ms) : schema.validate dateTime body = true := by
  unfold validated at h
  split at h
  · assumption
  · cases h

/-- An answer body as the schema has it. -/
theorem answerQuestionBody_of_valid {body : Json} (h : answerQuestionBodySchema.validate dateTime body = true) :
    ∃ b, answerQuestionBody dateTime body = some b ∧ uuidFormat b.commandId = true ∧ b.sessionId ≠ [] ∧
      Complete b.answers := by
  obtain ⟨ms, rfl, hms⟩ := validated_of_valid h
  obtain ⟨v, hv, hc⟩ := member_of_valid h "commandId" (by simp)
  obtain ⟨w, hw, hs⟩ := member_of_valid h "sessionId" (by simp)
  obtain ⟨x, hx, ha⟩ := member_of_valid h "answers" (by simp)
  simp only [validateNamed_cons, if_true] at hc
  rw [validateNamed_cons, if_neg (by simp [js]), validateNamed_cons, if_pos rfl] at hs
  rw [validateNamed_cons, if_neg (by simp [js]), validateNamed_cons, if_neg (by simp [js]), validateNamed_cons,
    if_pos rfl] at ha
  obtain ⟨commandId, rfl, hcommand⟩ := validate_uuidString.mp hc
  obtain ⟨sessionId, rfl, hsession⟩ := validate_nonEmptyString.mp hs
  obtain ⟨answers, rfl, hanswers⟩ := validate_questionAnswers.mp ha
  refine ⟨⟨commandId, sessionId, answers⟩, ?_, hcommand, hsession, hanswers⟩
  change ((validated dateTime answerQuestionBodySchema (.obj ms)).bind _) = _
  rw [answerQuestionBodySchema, hms]
  simp [memberText, hv, hw, memberAnswers_eq hx, Json.str?]

theorem decidePermissionBody_of_valid {body : Json} (h : decidePermissionBodySchema.validate dateTime body = true) :
    ∃ b, decidePermissionBody dateTime body = some b ∧ uuidFormat b.commandId = true ∧ b.sessionId ≠ [] := by
  obtain ⟨ms, rfl, hms⟩ := validated_of_valid h
  obtain ⟨v, hv, hc⟩ := member_of_valid h "commandId" (by simp)
  obtain ⟨w, hw, hs⟩ := member_of_valid h "sessionId" (by simp)
  obtain ⟨x, hx, hd⟩ := member_of_valid h "decision" (by simp)
  simp only [validateNamed_cons, if_true] at hc
  rw [validateNamed_cons, if_neg (by simp [js]), validateNamed_cons, if_pos rfl] at hs
  rw [validateNamed_cons, if_neg (by simp [js]), validateNamed_cons, if_neg (by simp [js]), validateNamed_cons,
    if_pos rfl] at hd
  obtain ⟨commandId, rfl, hcommand⟩ := validate_uuidString.mp hc
  obtain ⟨sessionId, rfl, hsession⟩ := validate_nonEmptyString.mp hs
  obtain ⟨decision, _, rfl⟩ := validate_decision.mp hd
  refine ⟨⟨commandId, sessionId, decisionOf (js decision)⟩, ?_, hcommand, hsession⟩
  change ((validated dateTime decidePermissionBodySchema (.obj ms)).bind _) = _
  rw [decidePermissionBodySchema, hms]
  simp [memberText, hv, hw, hx, Json.str?]

theorem sendPromptBody_of_valid {body : Json} (h : sendPromptBodySchema.validate dateTime body = true) :
    ∃ b, sendPromptBody dateTime body = some b ∧ uuidFormat b.commandId = true ∧ b.text ≠ [] ∧
      (codePoints b.text).length ≤ 32000 := by
  obtain ⟨ms, rfl, hms⟩ := validated_of_valid h
  obtain ⟨v, hv, hc⟩ := member_of_valid h "commandId" (by simp)
  obtain ⟨w, hw, ht⟩ := member_of_valid h "text" (by simp)
  simp only [validateNamed_cons, if_true] at hc
  rw [validateNamed_cons, if_neg (by simp [js]), validateNamed_cons, if_pos rfl] at ht
  obtain ⟨commandId, rfl, hcommand⟩ := validate_uuidString.mp hc
  obtain ⟨text, rfl, hmin, hmax, -⟩ := validate_string.mp ht
  refine ⟨⟨commandId, text⟩, ?_, hcommand, (codePoints_pos text).mp hmin, by simpa using hmax⟩
  change ((validated dateTime sendPromptBodySchema (.obj ms)).bind _) = _
  rw [sendPromptBodySchema, hms]
  simp [memberText, hv, hw, Json.str?]

theorem validated_of_read {α : Type} {schema : Schema} {body : Json} {f : List (JsString × Json) → Option α} {b : α}
    (h : (validated dateTime schema body).bind f = some b) : schema.validate dateTime body = true := by
  obtain ⟨ms, hms, -⟩ := Option.bind_eq_some_iff.mp h
  exact valid_of_validated hms

theorem answerQuestionBody_spec {body : Json} {b : AnswerQuestionBody} (h : answerQuestionBody dateTime body = some b) :
    uuidFormat b.commandId = true ∧ b.sessionId ≠ [] ∧ Complete b.answers := by
  obtain ⟨b', hb, hspec⟩ := answerQuestionBody_of_valid (validated_of_read h)
  cases h.symm.trans hb
  exact hspec

theorem decidePermissionBody_spec {body : Json} {b : DecidePermissionBody}
    (h : decidePermissionBody dateTime body = some b) :
    uuidFormat b.commandId = true ∧ b.sessionId ≠ [] := by
  obtain ⟨b', hb, hspec⟩ := decidePermissionBody_of_valid (validated_of_read h)
  cases h.symm.trans hb
  exact hspec

theorem sendPromptBody_spec {body : Json} {b : SendPromptBody} (h : sendPromptBody dateTime body = some b) :
    uuidFormat b.commandId = true ∧ b.text ≠ [] ∧ (codePoints b.text).length ≤ 32000 := by
  obtain ⟨b', hb, hspec⟩ := sendPromptBody_of_valid (validated_of_read h)
  cases h.symm.trans hb
  exact hspec

end NotifyHub.Control
