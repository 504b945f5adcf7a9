/-
  NotifyHub.Plugin.PendingAdapter — the pending-interaction adapter
  (packages/plugin/src/pending-adapter.ts): the two lists of requests OpenCode holds
  pending, mapped onto `PendingInteraction`s.

  The two SDK calls of a `list` settle when they like, each with any value or with an
  exception; `list` is what the adapter makes of them, and `firstObserved`, the one thing
  it keeps between polls. The session titles and the clock it reads are arguments.

  A poll returns the requests of both lists, or nothing (`list_eq_some`); every
  interaction it returns stands for a listed request (`interactions_listed`).
-/

import NotifyHub.Control.Types

namespace NotifyHub.Plugin

open Control

structure PendingSource where
  instanceId : JsString
  machine : JsString
  project : JsString
  directory : JsString

/-- One SDK list call. -/
inductive ListCall where
  | waiting
  | rejected
  | resolved (response : Option Json)

/-- The request array of an SDK envelope; `none` for an error envelope and any other shape. -/
def listPayload (response : Option Json) : Option (List Json) := do
  let envelope ← response.bind Json.record?
  let data ← if nonNullish (member envelope "error") then none else (member envelope "data").bind Json.record?
  if nonNullish (member data "error") then none else (member data "data").bind Json.arr?

/-- A `PermissionV2Source` carries tool identity only under `type: "tool"`; a question's tool has no type. -/
def mapTool (tool : Option Json) : Option PendingTool := do
  let ms ← tool.bind Json.record?
  if (member ms "type").any fun t => t.str? != some (js "tool") then none
  else
    let messageId ← asNonEmptyString (member ms "messageID")
    let callId ← asNonEmptyString (member ms "callID")
    some ⟨messageId, callId⟩

def mapOption (option : Json) : Option PendingQuestionOption := do
  let ms ← option.record?
  let label ← asNonEmptyString (member ms "label")
  some ⟨label, ((member ms "description").bind Json.str?).getD []⟩

def mapQuestionItem (item : Json) : Option PendingQuestionItem := do
  let ms ← item.record?
  let header ← asNonEmptyString (member ms "header")
  let question ← asNonEmptyString (member ms "question")
  let options ← (member ms "options").bind Json.arr?
  some
    { header
      question
      options := options.filterMap mapOption
      multiple := ((member ms "multiple").bind Json.bool?).getD false
      custom := ((member ms "custom").bind Json.bool?).getD true }

/-- The strings of an array; anything else has none. -/
def strings (value : Option Json) : List JsString := ((value.bind Json.arr?).getD []).filterMap Json.str?

section

variable (titleForSession : JsString → Option JsString) (source : PendingSource)

/-- What the two mappings share: the source's identity, the session and the request. -/
def interaction (sessionID id : JsString) (tool : Option PendingTool) (body : InteractionBody) : PendingInteraction :=
  { instanceId := source.instanceId
    machine := source.machine
    project := source.project
    directory := source.directory
    sessionId := sessionID
    sessionTitle := (titleForSession sessionID).getD []
    requestId := id
    occurredAt := []
    tool
    body }

def mapQuestion (raw : Json) : Option PendingInteraction := do
  let ms ← raw.record?
  let id ← asNonEmptyString (member ms "id")
  let sessionID ← asNonEmptyString (member ms "sessionID")
  let questions ← (member ms "questions").bind Json.arr?
  let items := questions.filterMap mapQuestionItem
  if items.isEmpty then none
  else some (interaction titleForSession source sessionID id (mapTool (member ms "tool")) (.question items))

def mapPermission (raw : Json) : Option PendingInteraction := do
  let ms ← raw.record?
  let id ← asNonEmptyString (member ms "id")
  let sessionID ← asNonEmptyString (member ms "sessionID")
  let permission ← asNonEmptyString (member ms "action")
  let resources ← (member ms "resources").bind Json.arr?
  some (interaction titleForSession source sessionID id (mapTool (member ms "source"))
    (.permission permission (strings (some (.arr resources))) (strings (member ms "save"))
      (((member ms "metadata").bind Json.record?).getD [])))

def interactions (questionRequests permissionRequests : List Json) : List PendingInteraction :=
  questionRequests.filterMap (mapQuestion titleForSession source) ++
    permissionRequests.filterMap (mapPermission titleForSession source)

end

/-! ## The first time a request is seen -/

/-- `${interaction.kind}:${interaction.requestId}` -/
def stampKey (i : PendingInteraction) : JsString :=
  (match i.kind with | .question => js "question:" | .permission => js "permission:") ++ i.requestId

/-- The loop of `stampOccurredAt`: each interaction gets the time of its key, `nowIso` for a new one. -/
def stampEach (nowIso : JsString) (firstObserved : OMap JsString JsString) :
    List PendingInteraction → OMap JsString JsString × List PendingInteraction
  | [] => (firstObserved, [])
  | i :: l =>
    let occurredAt := (firstObserved.get (stampKey i)).getD nowIso
    let firstObserved :=
      if (firstObserved.get (stampKey i)).isSome then firstObserved else firstObserved.set (stampKey i) occurredAt
    let rest := stampEach nowIso firstObserved l
    (rest.1, { i with occurredAt } :: rest.2)

def stampOccurredAt (nowIso : JsString) (firstObserved : OMap JsString JsString) (l : List PendingInteraction) :
    OMap JsString JsString × List PendingInteraction :=
  let stamped := stampEach nowIso firstObserved l
  (stamped.1.filter fun key _ => key ∈ l.map stampKey, stamped.2)

/-! ## Polling -/

/-- What `list` returns, with the times it keeps, once `Promise.all` of its two calls has
    settled: one exception or one unreadable list makes it empty. -/
def list (titleForSession : JsString → Option JsString) (source : PendingSource) (nowIso : JsString)
    (firstObserved : OMap JsString JsString) :
    ListCall → ListCall → Option (OMap JsString JsString × List PendingInteraction)
  | .rejected, _ | _, .rejected => some (firstObserved, [])
  | .resolved question, .resolved permission =>
    match listPayload question, listPayload permission with
    | some questionRequests, some permissionRequests =>
      some (stampOccurredAt nowIso firstObserved
        (interactions titleForSession source questionRequests permissionRequests))
    | _, _ => some (firstObserved, [])
  | _, _ => none

/-- The request array a call was read for. -/
def ListCall.payload : ListCall → Option (List Json)
  | .resolved response => listPayload response
  | _ => none

/-- The call has settled, and no request array came of it. -/
def ListCall.failed : ListCall → Bool
  | .waiting => false
  | .rejected => true
  | .resolved response => (listPayload response).isNone

/-- The request ids of a list response. -/
def listedIds (response : Option Json) : List JsString :=
  ((listPayload response).getD []).filterMap fun raw => raw.record?.bind fun ms => asNonEmptyString (member ms "id")

theorem stampEach_ids (nowIso : JsString) (l : List PendingInteraction) :
    ∀ firstObserved, (stampEach nowIso firstObserved l).2.map (·.requestId) = l.map (·.requestId) := by
  induction l with
  | nil => exact fun _ => rfl
  | cons i l ih => exact fun firstObserved => by rw [stampEach, List.map_cons, List.map_cons, ih]

theorem mapQuestion_id {titles : JsString → Option JsString} {source : PendingSource} {raw : Json}
    {i : PendingInteraction}
    (h : mapQuestion titles source raw = some i) :
    (raw.record?.bind fun ms => asNonEmptyString (member ms "id")) = some i.requestId := by
  simp only [mapQuestion, Option.bind_eq_bind, Option.bind_eq_some_iff] at h
  obtain ⟨ms, hms, id, hid, _, _, _, _, hi⟩ := h
  split at hi
  · cases hi
  · cases hi; exact Option.bind_eq_some_iff.mpr ⟨ms, hms, hid⟩

theorem mapPermission_id {titles : JsString → Option JsString} {source : PendingSource} {raw : Json}
    {i : PendingInteraction}
    (h : mapPermission titles source raw = some i) :
    (raw.record?.bind fun ms => asNonEmptyString (member ms "id")) = some i.requestId := by
  simp only [mapPermission, Option.bind_eq_bind, Option.bind_eq_some_iff] at h
  obtain ⟨ms, hms, id, hid, _, _, _, _, _, _, hi⟩ := h
  cases hi
  exact Option.bind_eq_some_iff.mpr ⟨ms, hms, hid⟩

/-- A poll that returns: either both lists were read, or one call failed and nothing is returned. -/
theorem list_eq_some {titles : JsString → Option JsString} {source : PendingSource} {nowIso : JsString}
    {firstObserved firstObserved' : OMap JsString JsString} {question permission : ListCall}
    {l : List PendingInteraction}
    (h : list titles source nowIso firstObserved question permission = some (firstObserved', l)) :
    (∃ qs ps, question.payload = some qs ∧ permission.payload = some ps ∧
      l = (stampOccurredAt nowIso firstObserved (interactions titles source qs ps)).2) ∨
    ((question.failed = true ∨ permission.failed = true) ∧ l = []) := by
  unfold list at h
  split at h
  · cases h; exact Or.inr ⟨Or.inl rfl, rfl⟩
  · cases h; exact Or.inr ⟨Or.inr rfl, rfl⟩
  · rename_i q p
    split at h
    · rename_i qs ps hq hp
      exact Or.inl ⟨qs, ps, hq, hp, (congrArg Prod.snd (Option.some.inj h)).symm⟩
    · rename_i hnone
      cases h
      refine Or.inr ⟨?_, rfl⟩
      cases hq : listPayload q with
      | none => exact Or.inl (by simp [ListCall.failed, hq])
      | some qs =>
        cases hp : listPayload p with
        | none => exact Or.inr (by simp [ListCall.failed, hp])
        | some ps => exact absurd hp (hnone qs ps hq)
  · cases h

/-- Every interaction of a poll stands for a request of one of the two responses. -/
theorem interactions_listed {titles : JsString → Option JsString} {source : PendingSource}
    {question permission : Option Json}
    {qs ps : List Json} (hq : listPayload question = some qs) (hp : listPayload permission = some ps)
    {i : PendingInteraction} (hi : i ∈ interactions titles source qs ps) :
    i.requestId ∈ listedIds question ∨ i.requestId ∈ listedIds permission := by
  rcases List.mem_append.mp hi with hi | hi <;> obtain ⟨raw, hraw, hmap⟩ := List.mem_filterMap.mp hi
  · exact Or.inl (List.mem_filterMap.mpr ⟨raw, by rw [hq]; exact hraw, mapQuestion_id hmap⟩)
  · exact Or.inr (List.mem_filterMap.mpr ⟨raw, by rw [hp]; exact hraw, mapPermission_id hmap⟩)

end NotifyHub.Plugin
