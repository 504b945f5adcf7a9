/-
  NotifyHub.Plugin.QuestionReply — the question-reply adapter
  (packages/plugin/src/question-reply-adapter.ts): a complete answer set is posted to
  OpenCode as it came, and how that call ends is the status of the command.

  The answers are for the items of the projection, and the projection leaves out what it
  cannot map. They are posted at the places of the upstream questions they were given for
  exactly when nothing was left out (`answers_aligned`).
-/

import NotifyHub.Plugin.FrameParsers
import NotifyHub.Plugin.PendingAdapter

namespace NotifyHub.Plugin

open Control Contracts

/-- The parameters of `session.question.reply`; `answers` stands under `questionV2Reply`. -/
structure ReplyParameters where
  sessionID : JsString
  requestID : JsString
  answers : QuestionAnswers

/-- How the SDK's reply call ends. -/
inductive ReplyCall where
  | rejected
  | resolved (response : Option Json)

/-- The `_tag` of an SDK error. -/
def errorTag (error : Option Json) : Option JsString :=
  (error.bind Json.record?).bind fun ms => (member ms "_tag").bind Json.str?

def mapReply (response : Option Json) : CommandStatus :=
  match response.bind Json.record? with
  | none => .resultUnknown
  | some envelope =>
    if nonNullish (member envelope "error") then
      match errorTag (member envelope "error") with
      | some tag => if tag = js "QuestionNotFoundError" ∨
          tag = js "SessionNotFoundError" then .stale else .upstreamError
      | none => .resultUnknown
    else .confirmed

/-- `QuestionReplyAdapter.reply`: what it posts, and the status it resolves to. -/
def reply (upstream : ReplyParameters → ReplyCall) (requestId sessionID : JsString) (answers : QuestionAnswers) :
    ReplyParameters × CommandStatus :=
  let parameters : ReplyParameters := { sessionID, requestID := requestId, answers }
  match upstream parameters with
  | .rejected => (parameters, .resultUnknown)
  | .resolved response => (parameters, mapReply response)

theorem reply_posts (upstream : ReplyParameters → ReplyCall) (requestId sessionID : JsString)
    (answers : QuestionAnswers) :
    (reply upstream requestId sessionID answers).1 = { sessionID, requestID := requestId, answers } := by
  unfold reply
  dsimp only
  split <;> rfl

/-- A command is confirmed only by an envelope that carries no error. -/
theorem reply_confirmed {upstream : ReplyParameters → ReplyCall} {requestId sessionID : JsString}
    {answers : QuestionAnswers} (h : (reply upstream requestId sessionID answers).2 = .confirmed) :
    ∃ envelope, upstream { sessionID, requestID := requestId, answers } = .resolved (some (.obj envelope)) ∧
      nonNullish (member envelope "error") = false := by
  unfold reply at h
  dsimp only at h
  split at h
  · cases h
  · rename_i response hcall
    unfold mapReply at h
    split at h
    · cases h
    · rename_i envelope henvelope
      obtain ⟨v, rfl, hv⟩ := Option.bind_eq_some_iff.mp henvelope
      cases v <;> simp only [Json.record?, Option.some.injEq, reduceCtorEq] at hv
      subst hv
      refine ⟨_, hcall, ?_⟩
      by_contra herror
      rw [Bool.not_eq_false] at herror
      rw [if_pos herror] at h
      split at h
      · split at h <;> cases h
      · cases h

/-! ## Where the answers land -/

/-- An upstream item the projection keeps. -/
structure IsQuestion (item : Json) : Prop where
  header : ∃ ms s, item = .obj ms ∧ member ms "header" = some (.str s) ∧ s ≠ []
  question : ∃ ms s, item = .obj ms ∧ member ms "question" = some (.str s) ∧ s ≠ []
  options : ∃ ms l, item = .obj ms ∧ member ms "options" = some (.arr l)

theorem mapQuestionItem_isSome (item : Json) : (mapQuestionItem item).isSome = true ↔ IsQuestion item := by
  rw [Option.isSome_iff_exists]
  constructor
  · rintro ⟨mapped, h⟩
    simp only [mapQuestionItem, Option.bind_eq_bind, Option.bind_eq_some_iff] at h
    obtain ⟨ms, hms, header, hh, question, hq, options, ⟨v, hv, ho⟩, -⟩ := h
    cases item <;> simp only [Json.record?, Option.some.injEq, reduceCtorEq] at hms
    cases v <;> simp only [Json.arr?, Option.some.injEq, reduceCtorEq] at ho
    subst hms
    obtain ⟨hh, hh'⟩ := asNonEmptyString_eq_some.mp hh
    obtain ⟨hq, hq'⟩ := asNonEmptyString_eq_some.mp hq
    exact ⟨⟨_, _, rfl, hh, hh'⟩, ⟨_, _, rfl, hq, hq'⟩, ⟨_, _, rfl, hv⟩⟩
  · rintro ⟨⟨ms, header, rfl, hh, hh'⟩, ⟨_, question, heq, hq, hq'⟩, ⟨_, options, heq', ho⟩⟩
    cases heq
    cases heq'
    simp only [mapQuestionItem, Json.record?, hh, hq, ho, asNonEmptyString_str, if_neg hh', if_neg hq', Json.arr?,
      Option.bind_eq_bind, Option.bind_some, Option.some.injEq, exists_eq']

/-- The places of the upstream items a projection is made of. -/
def sources (questions : List Json) : List Nat :=
  (List.range questions.length).filter fun j => (questions[j]?.bind mapQuestionItem).isSome

theorem sources_cons (item : Json) (questions : List Json) :
    sources (item :: questions) =
      (if (mapQuestionItem item).isSome then [0] else []) ++ (sources questions).map Nat.succ := by
  rw [sources, List.length_cons, List.range_succ_eq_map, List.filter_cons, List.filter_map]
  have htail : (fun j => ((item :: questions)[j]?.bind mapQuestionItem).isSome) ∘ Nat.succ =
      fun j => (questions[j]?.bind mapQuestionItem).isSome := by
    funext j
    rw [Function.comp_apply, Nat.succ_eq_add_one, List.getElem?_cons_succ]
  rw [htail, List.getElem?_cons_zero, Option.bind_some]
  cases (mapQuestionItem item).isSome <;> rfl

/-- Each item of a projection is mapped from the upstream item at its place. -/
theorem projection_sources (questions : List Json) :
    (sources questions).filterMap (fun j => questions[j]?.bind mapQuestionItem) =
      questions.filterMap mapQuestionItem := by
  induction questions with
  | nil => rfl
  | cons item questions ih =>
    rw [sources_cons, List.filterMap_append, List.filterMap_map, List.filterMap_cons]
    have htail : ((fun j => (item :: questions)[j]?.bind mapQuestionItem) ∘ Nat.succ) =
        fun j => questions[j]?.bind mapQuestionItem := by
      funext j
      rw [Function.comp_apply, Nat.succ_eq_add_one, List.getElem?_cons_succ]
    rw [htail, ih]
    cases h : mapQuestionItem item <;> simp [h]

theorem sources_length (questions : List Json) :
    (sources questions).length = (questions.filterMap mapQuestionItem).length := by
  induction questions with
  | nil => rfl
  | cons item questions ih =>
    rw [sources_cons, List.length_append, List.length_map, ih, List.filterMap_cons]
    cases h : mapQuestionItem item
    · simp
    · simp [Nat.add_comm]

/-- With nothing left out each item is at its own place. -/
theorem sources_of_all {questions : List Json} (h : ∀ item ∈ questions, IsQuestion item) :
    sources questions = List.range questions.length := by
  refine List.filter_eq_self.mpr fun j hj => ?_
  have hlt := List.mem_range.mp hj
  rw [List.getElem?_eq_getElem hlt, Option.bind_some, mapQuestionItem_isSome]
  exact h _ (List.getElem_mem hlt)

/-- `posted` has one entry for each upstream question, and the `k`-th answer stands at the
    place of the item the `k`-th projected one was made of. -/
structure Aligned (questions : List Json) (answers posted : QuestionAnswers) : Prop where
  length : posted.length = questions.length
  placed : ∀ k j : Nat, (sources questions)[k]? = some j → posted[j]? = answers[k]?

theorem aligned_iff {questions : List Json} {answers : QuestionAnswers}
    (hl : answers.length = (questions.filterMap mapQuestionItem).length) :
    Aligned questions answers answers ↔ ∀ item ∈ questions, IsQuestion item := by
  constructor
  · intro h
    have hall := List.filterMap_length_eq_length.mp (hl.symm.trans h.length)
    exact fun item hitem => (mapQuestionItem_isSome item).mp (hall item hitem)
  · intro h
    have hsources := sources_of_all h
    refine ⟨?_, fun k j hkj => ?_⟩
    · rw [hl, ← sources_length, hsources, List.length_range]
    · rw [hsources] at hkj
      obtain ⟨hk, hj⟩ := List.getElem?_eq_some_iff.mp hkj
      rw [← hj, List.getElem_range]

theorem mapQuestion_eq_some {titles : JsString → Option JsString} {source : PendingSource}
    {raw : Json} {i : PendingInteraction}
    (h : mapQuestion titles source raw = some i) :
    ∃ ms questions, raw = .obj ms ∧ member ms "questions" = some (.arr questions) ∧
      i.body = .question (questions.filterMap mapQuestionItem) := by
  simp only [mapQuestion, Option.bind_eq_bind, Option.bind_eq_some_iff] at h
  obtain ⟨ms, hms, _, -, _, -, questions, ⟨v, hv, hq⟩, hi⟩ := h
  cases raw <;> simp only [Json.record?, Option.some.injEq, reduceCtorEq] at hms
  cases v <;> simp only [Json.arr?, Option.some.injEq, reduceCtorEq] at hq
  subst hms hq
  split at hi
  · cases hi
  · cases hi
    exact ⟨_, _, rfl, hv, rfl⟩

/-- A command that is read is the one that was written. -/
theorem parseAnswerCommand_answers {commandId requestId sessionID : JsString} {answers : QuestionAnswers}
    {c : AnswerCommand}
    (h : parseAnswerCommand (serverFrame (.questionAnswerCommand commandId requestId sessionID answers)) = some c) :
    c = ⟨commandId, requestId, sessionID, answers⟩ := by
  rw [parseAnswerCommand_frame] at h
  split at h
  · exact (Option.some.inj h).symm
  · cases h

/-- One answer for each item a request was projected to, submitted in the projection's
    order: what is posted upstream is aligned with the request's questions exactly when
    every one of them could be mapped. -/
theorem answers_aligned {titles : JsString → Option JsString} {source : PendingSource} {raw : Json}
    {i : PendingInteraction}
    (h : mapQuestion titles source raw = some i) :
    ∃ ms questions items, raw = .obj ms ∧ member ms "questions" = some (.arr questions) ∧
      i.body = .question items ∧ items = (sources questions).filterMap (fun j => questions[j]?.bind mapQuestionItem) ∧
      ∀ commandId answers c upstream, answers.length = items.length →
        parseAnswerCommand (serverFrame (.questionAnswerCommand commandId i.requestId i.sessionId answers)) = some c →
        (Aligned questions answers (reply upstream c.requestId c.sessionID c.answers).1.answers ↔
          ∀ item ∈ questions, IsQuestion item) := by
  obtain ⟨ms, questions, hraw, hquestions, hbody⟩ := mapQuestion_eq_some h
  refine ⟨ms, questions, _, hraw, hquestions, hbody, (projection_sources questions).symm, ?_⟩
  intro commandId answers c upstream hl hc
  rw [reply_posts, parseAnswerCommand_answers hc]
  exact aligned_iff hl

/-! ## A question left out -/

/-- One upstream question. -/
def asked (header : String) : Json :=
  .obj [(js "header", text header), (js "question", text "Proceed?"), (js "options", .arr [])]

/-- A request with one question under each header. -/
def asking (headers : List String) : Json :=
  .obj [(js "id", text "que"), (js "sessionID", text "ses"), (js "questions", .arr (headers.map asked))]

def hub : PendingSource := ⟨js "ins", js "desk", js "hub", js "/hub"⟩

def command1 : JsString := js "40000000-0000-4000-8000-000000000000"

/-- OpenCode applies every reply. -/
def applies : ReplyParameters → ReplyCall := fun _ => .resolved (some (.obj []))

/-- Two questions, two answers, each at its place. -/
theorem both_answered : ∃ i, mapQuestion (fun _ => none) hub (asking ["Build", "Deploy"]) = some i ∧
    Aligned [asked "Build", asked "Deploy"] [[js "yes"], [js "no"]]
      (reply applies i.requestId i.sessionId [[js "yes"], [js "no"]]).1.answers := by
  refine ⟨_, rfl, ?_⟩
  have h : mapQuestion (fun _ => none) hub (asking ["Build", "Deploy"]) = some _ := rfl
  obtain ⟨ms, questions, items, hraw, hquestions, hbody, _, haligned⟩ := answers_aligned h
  cases hraw
  cases hquestions
  cases hbody
  have hread : parseAnswerCommand (serverFrame (.questionAnswerCommand command1 (js "que") (js "ses")
      [[js "yes"], [js "no"]])) = some ⟨command1, js "que", js "ses", [[js "yes"], [js "no"]]⟩ :=
    (parseAnswerCommand_frame ..).trans (if_pos (by decide +kernel))
  refine (haligned command1 _ _ applies rfl hread).mpr fun item hitem => (mapQuestionItem_isSome item).mp ?_
  simp only [List.map_cons, List.map_nil, List.mem_cons, List.not_mem_nil, or_false] at hitem
  rcases hitem with rfl | rfl <;> rfl

/-- Of two questions the first has no header. Its answer form holds the second alone, and
    the answer to the second is posted as the answer to the first. -/
theorem answer_shifted : ∃ i c, mapQuestion (fun _ => none) hub (asking ["", "Deploy"]) = some i ∧
    i.body = .question [⟨js "Deploy", js "Proceed?", [], false, true⟩] ∧
    parseAnswerCommand (serverFrame (.questionAnswerCommand command1 i.requestId i.sessionId [[js "no"]])) = some c ∧
    (reply applies c.requestId c.sessionID c.answers).1.answers[0]? = some [js "no"] ∧
    ¬ Aligned [asked "", asked "Deploy"] [[js "no"]] (reply applies c.requestId c.sessionID c.answers).1.answers := by
  have hread : parseAnswerCommand (serverFrame (.questionAnswerCommand command1 (js "que") (js "ses") [[js "no"]])) =
      some ⟨command1, js "que", js "ses", [[js "no"]]⟩ :=
    (parseAnswerCommand_frame ..).trans (if_pos (by decide +kernel))
  refine ⟨_, _, rfl, rfl, hread, rfl, fun h => ?_⟩
  exact absurd h.length (by decide)

end NotifyHub.Plugin
