/-
  NotifyHub.Plugin.V2Commands — `answer`, `decide` and `prompt` of `V2Api`
  (packages/plugin/src/v2-api.ts): up to three requests, each of which can fail by its
  status, its body, an exception or an abort, and one of four results.

  - `Ran`: what a run comes to, by the request at which it ends.
  - `Truthful`: one write at most, last of all, after the session was found and, for an
    answer, the form read as pending; and what is reported of it.
  - `v2_commands`: every run is truthful, and the lists of an answer reach the fields whose
    questions were listed.
-/

import NotifyHub.Plugin.V2Forms

namespace NotifyHub.Plugin.V2

open Control (CommandStatus PermissionDecision QuestionAnswers PendingQuestionItem PendingInteraction)
open Percent (encodeURIComponent pathname route)

variable (W : World) (directory : JsString)

def staleTags : List JsString :=
  [js "SessionNotFoundError", js "FormNotFoundError", js "FormAlreadySettledError", js "PermissionNotFoundError"]

def commandError : Thrown → CommandStatus
  | .other => .resultUnknown
  | .api _ tag => if ((stringOf tag).getD []) ∈ staleTags then .stale else .upstreamError

/-- What `command` makes of the response to its write. -/
def settle (response : Response) : Except Thrown CommandStatus :=
  if response.ok then if response.cancels then .ok .confirmed else .error .other
  else do return commandError (.api response.status (← response.tag))

/-- The requests of `command`. -/
def attempt (sessionID path : JsString) (body : Api Json) : Api CommandStatus := do
  let _ ← session W directory sessionID
  let payload ← body
  settle (← request W path (some payload))

/-- `command` -/
def command (sessionID path : JsString) (body : Api Json) : StateM (List Exchange) CommandStatus := do
  match ← (attempt W directory sessionID path body).run with
  | .ok status => return status
  | .error thrown => return commandError thrown

/-! ## The three commands -/

/-- The path of a form or a permission, of encoded ids. -/
def requestPath (kind sessionID requestID : JsString) : JsString := sessionPath sessionID ++ kind ++ requestID

/-- The value of an entry: a list for a multiple choice, its first string or `""` for a single one. -/
def entryValue (field : Json) (answer : List JsString) : Json :=
  if fieldType field = some (js "multiselect") then .arr (answer.map .str) else .str (answer.head?.getD [])

def entry (field : Json) (answer : List JsString) : JsString × Json :=
  ((stringOf (chained (some field) "key")).getD [], entryValue field answer)

def answerJson (fields : List Json) (answers : QuestionAnswers) : Json :=
  .obj [(js "answer", .obj (List.zipWith entry fields answers))]

def alreadySettled : Thrown := .api 409 (some (.str (js "FormAlreadySettledError")))

/-- A list for each field, of one string at most for a single choice. -/
def fits (fields : List Json) (answers : QuestionAnswers) : Bool :=
  fields.length == answers.length &&
    !(fields.zip answers).any fun (field, answer) => fieldType field == some (js "string") && 1 < answer.length

/-- What `answer` makes of the form it reads. -/
def readForm (answers : QuestionAnswers) (result : Json) : Except Thrown Json := do
  let form ← property (some result) "data"
  if stringOf (← property (← property form "state") "status") ≠ some (js "pending") then throw alreadySettled
  match ← questionFromForm form, chained form "fields" with
  | some _, some (.arr fields) =>
    if fits fields answers then return answerJson fields answers else throw (.api 400 none)
  | _, _ => throw (.api 400 none)

/-- What a call returns, if the ids of its path can be encoded, and the requests it made. -/
abbrev Called := Option CommandStatus × List Exchange

def called (run : StateM (List Exchange) CommandStatus) : Called := (some (run.run []).1, (run.run []).2)

def answer (requestID sessionID : JsString) (answers : QuestionAnswers) : Called :=
  match encodeURIComponent sessionID, encodeURIComponent requestID with
  | some s, some r =>
    let path := requestPath (js "/form/") s r
    called (command W directory sessionID (path ++ js "/reply") do readForm answers (← json W path))
  | _, _ => (none, [])

def decide (requestID sessionID : JsString) (decision : PermissionDecision) : Called :=
  match encodeURIComponent sessionID, encodeURIComponent requestID with
  | some s, some r =>
    called (command W directory sessionID (requestPath (js "/permission/") s r ++ js "/reply")
      (return .obj [(js "decision", .str (js (Contracts.decisionText decision)))]))
  | _, _ => (none, [])

def prompt (sessionID text : JsString) : Called :=
  match encodeURIComponent sessionID with
  | some s =>
    called do
      let status ← command W directory sessionID (sessionPath s ++ js "/prompt") (return .obj [(js "text", .str text)])
      return if status = .stale then .upstreamError else status
  | none => (none, [])

/-! ## What a run comes to -/

/-- What `json` makes of what became of its request. -/
def Outcome.value (o : Outcome) : Except Thrown Json := do (← o.response).read

/-- What `command` returns, of what its requests came to. -/
def statusOf : Except Thrown CommandStatus → CommandStatus
  | .ok status => status
  | .error thrown => commandError thrown

/-- What it makes of what became of its write. -/
def Outcome.settled (o : Outcome) : CommandStatus := statusOf (o.response.bind settle)

def exchanged (past : List Exchange) (asked : Request) : List Exchange := past ++ [⟨asked, W past asked⟩]

variable {W directory}

/-- The next of a sequence of requests. -/
theorem bind_run {α β : Type} (m : Api α) (f : α → Api β) (past : List Exchange) :
    (m >>= f).run.run past =
      match (m.run.run past).1 with
      | .ok a => (f a).run.run (m.run.run past).2
      | .error thrown => (.error thrown, (m.run.run past).2) := by
  rw [ExceptT.run_bind, StateT.run_bind]
  dsimp only [bind]
  cases (m.run.run past).1 <;> rfl

theorem lift_run {α : Type} (e : Except Thrown α) (past : List Exchange) :
    (liftM e : Api α).run.run past = (e, past) := by
  cases e <;> rfl

theorem request_run (path : JsString) (body : Json) (past : List Exchange) :
    (request W path (some body)).run.run past =
      ((W past (.post (pathname path) body)).response, exchanged W past (.post (pathname path) body)) :=
  lift_run _ _

theorem read_run (path : JsString) (past : List Exchange) :
    (request W path none).run.run past =
      ((W past (.get (pathname path))).response, exchanged W past (.get (pathname path))) :=
  lift_run _ _

theorem json_run (path : JsString) (past : List Exchange) :
    (json W path).run.run past = ((W past (.get (pathname path))).value, exchanged W past (.get (pathname path))) := by
  rw [json, bind_run, read_run, Outcome.value]
  cases (W past (.get (pathname path))).response with
  | error thrown => rfl
  | ok response => exact lift_run _ _

/-- The request of a session lookup, of an encoded id. -/
def lookup (encoded : JsString) : Request := .get (pathname (sessionPath encoded))

theorem session_run {id encoded : JsString} (h : encodeURIComponent id = some encoded) (past : List Exchange) :
    (session W directory id).run.run past =
      ((W past (lookup encoded)).value.bind (readSession directory id), exchanged W past (lookup encoded)) := by
  unfold session lookup
  rw [h]
  dsimp only
  rw [bind_run, json_run]
  cases (W past (.get (pathname (sessionPath encoded)))).value with
  | error thrown => rfl
  | ok result => exact lift_run _ _

/-- What a command comes to: the lookup fails; or its body cannot be made, of what it reads
    after it; or it is written. -/
inductive Ran (W : World) (directory id encoded write : JsString) (result : Except Thrown Json)
    (reads : List Exchange) :
    CommandStatus → List Exchange → Prop where
  | refused (thrown : Thrown) (h : (W [] (lookup encoded)).value.bind (readSession directory id) = .error thrown) :
      Ran W directory id encoded write result reads (commandError thrown) (exchanged W [] (lookup encoded))
  | unread (s : HostSession) (h : (W [] (lookup encoded)).value.bind (readSession directory id) = .ok s)
      (thrown : Thrown) (hresult : result = .error thrown) :
      Ran W directory id encoded write result reads (commandError thrown) (exchanged W [] (lookup encoded) ++ reads)
  | written (s : HostSession) (h : (W [] (lookup encoded)).value.bind (readSession directory id) = .ok s)
      (payload : Json) (hresult : result = .ok payload) (o : Outcome)
      (ho : o = W (exchanged W [] (lookup encoded) ++ reads) (.post (pathname write) payload)) :
      Ran W directory id encoded write result reads o.settled
        (exchanged W [] (lookup encoded) ++ reads ++ [⟨.post (pathname write) payload, o⟩])

theorem command_run (id write : JsString) (body : Api Json) (past : List Exchange) :
    (command W directory id write body).run past =
      (statusOf ((attempt W directory id write body).run.run past).1,
        ((attempt W directory id write body).run.run past).2) := by
  unfold command
  rw [StateT.run_bind]
  dsimp only [bind]
  cases ((attempt W directory id write body).run.run past).1 <;> rfl

theorem command_ran {id encoded write : JsString} {body : Api Json} {result : Except Thrown Json}
    {reads : List Exchange}
    (h : encodeURIComponent id = some encoded)
    (hbody : body.run.run (exchanged W [] (lookup encoded)) = (result, exchanged W [] (lookup encoded) ++ reads)) :
    Ran W directory id encoded write result reads ((command W directory id write body).run []).1
      ((command W directory id write body).run []).2 := by
  rw [command_run, attempt, bind_run, session_run h]
  cases hfound : (W [] (lookup encoded)).value.bind (readSession directory id) with
  | error thrown => exact .refused thrown hfound
  | ok s =>
    dsimp only
    rw [bind_run, hbody]
    cases result with
    | error thrown => exact .unread s hfound thrown rfl
    | ok payload =>
      dsimp only
      rw [bind_run, request_run]
      have hran : Ran W directory id encoded write (.ok payload) reads _ _ := .written s hfound payload rfl _ rfl
      unfold Outcome.settled at hran
      cases hresponse : (W (exchanged W [] (lookup encoded) ++ reads) (.post (pathname write) payload)).response with
      | error thrown =>
        rw [hresponse] at hran
        exact hran
      | ok response =>
        rw [hresponse] at hran
        dsimp only
        rw [lift_run]
        exact hran

/-- A body that nothing is read for. -/
theorem pure_ran (W : World) (directory : JsString) {id encoded : JsString} (h : encodeURIComponent id = some encoded)
    (write : JsString) (payload : Json) :
    Ran W directory id encoded write (.ok payload) [] ((command W directory id write (pure payload)).run []).1
      ((command W directory id write (pure payload)).run []).2 :=
  command_ran h rfl

/-! ## Reports -/

/-- The response came, with an ok status. -/
def Outcome.ok : Outcome → Bool
  | .answered response => response.ok
  | _ => false

theorem commandError_ne_confirmed (thrown : Thrown) : commandError thrown ≠ .confirmed := by
  cases thrown with
  | other =>
    intro h
    cases h
  | api status tag =>
    by_cases hstale : (stringOf tag).getD [] ∈ staleTags <;> simp [commandError, hstale]

theorem settled_of_ok {o : Outcome} (h : o.ok = true) : o.settled = .confirmed ∨ o.settled = .resultUnknown := by
  cases o with
  | unsent => cases h
  | lost => cases h
  | answered response =>
    change response.ok = true at h
    change statusOf (settle response) = .confirmed ∨ statusOf (settle response) = .resultUnknown
    rw [settle, if_pos h]
    split
    · exact Or.inl rfl
    · exact Or.inr rfl

theorem ok_of_settled {o : Outcome} (h : o.settled = .confirmed) : o.ok = true := by
  cases o with
  | unsent => cases h
  | lost => cases h
  | answered response =>
    by_contra hno
    change ¬ response.ok = true at hno
    change statusOf (settle response) = .confirmed at h
    rw [settle, if_neg hno] at h
    cases htag : response.tag with
    | error thrown =>
      rw [htag] at h
      exact commandError_ne_confirmed _ h
    | ok tag =>
      rw [htag] at h
      change commandError (.api response.status tag) = .confirmed at h
      exact commandError_ne_confirmed _ h

/-! ## Routes -/

/-- The words of the paths are written as they are. -/
theorem encoded_words : ∀ w ∈ [js "api", js "session", js "form", js "permission", js "reply", js "prompt"],
    Percent.Encoded w w := by
  intro w hw
  simp only [List.mem_cons, List.not_mem_nil, or_false] at hw
  unfold Percent.Encoded
  rcases hw with rfl | rfl | rfl | rfl | rfl | rfl <;> decide +kernel

theorem words_not_dots : ∀ w ∈ [js "api", js "session", js "form", js "permission", js "reply", js "prompt"],
    w ≠ js "." ∧ w ≠ js ".." := by decide

theorem sessionPath_eq (e : JsString) : sessionPath e = Percent.pathOf [js "api", js "session", e] := by
  have h : js "/api/session/" = Percent.pathOf [js "api", js "session", []] := by decide
  rw [sessionPath, h]
  simp [Percent.pathOf]

theorem requestPath_eq (word s r : JsString) :
    requestPath (Percent.slash :: (word ++ [Percent.slash])) s r = Percent.pathOf
      [js "api", js "session", s, word, r] := by
  rw [requestPath, sessionPath_eq]
  simp [Percent.pathOf]

/-- Encoded texts, the first two the words of every path, are routed. -/
theorem route_api {texts segments : List JsString} (h : List.Forall₂ Percent.Encoded texts segments)
    (hdots : ∀ s ∈ texts, s ≠ js "." ∧ s ≠ js "..") :
    route (pathname (Percent.pathOf (js "api" :: js "session" :: segments))) = js "api" :: js "session" :: texts := by
  refine Percent.route_pathname (by simp) ?_ (.cons (encoded_words _ (by simp)) (.cons (encoded_words _ (by simp)) h))
  intro s hs
  rcases List.mem_cons.mp hs with rfl | hs
  · exact words_not_dots _ (by simp)
  · rcases List.mem_cons.mp hs with rfl | hs
    · exact words_not_dots _ (by simp)
    · exact hdots s hs

/-! ## The form that is answered -/

/-- An entry: the field's key, and the list for it, whole for a multiple choice, its only
    string or `""` for a single one. -/
structure Answers (field : Json) (answer : List JsString) (entry : JsString × Json) : Prop where
  key : stringOf (chained (some field) "key") = some entry.1
  multiple : fieldType field = some (js "multiselect") → entry.2 = .arr (answer.map .str)
  single : fieldType field = some (js "string") → answer = [] ∧ entry.2 = .str [] ∨ ∃ text,
  answer = [text] ∧ entry.2 = .str text

/-- A body with one entry for each field, the lists in the order of the fields. -/
structure Reaches (fields : List Json) (answers : QuestionAnswers) (body : Json) : Prop where
  count : fields.length = answers.length
  entries : ∃ entries : List (JsString × Json), body = .obj [(js "answer", .obj entries)] ∧
    entries.length = fields.length ∧
    (entries.map Prod.fst).Nodup ∧
    ∀ (k : Nat) (field : Json) (answer : List JsString) (entry : JsString × Json), fields[k]? = some field →
      answers[k]? = some answer → entries[k]? = some entry → Answers field answer entry

theorem questionKey_inj {i j : Nat} (h : questionKey i = questionKey j) : i = j :=
  decimal_inj (List.append_cancel_left h)

theorem fits_iff {fields : List Json} {answers : QuestionAnswers} :
    fits fields answers = true ↔ fields.length = answers.length ∧
      ∀ (k : Nat) (field : Json) (answer : List JsString), fields[k]? = some field → answers[k]? = some answer →
        fieldType field = some (js "string") → answer.length ≤ 1 := by
  simp only [fits, Bool.and_eq_true, beq_iff_eq, Bool.not_eq_true', List.any_eq_false, Bool.and_eq_true,
    decide_eq_true_eq,
    not_and, Nat.not_lt]
  refine and_congr_right fun _ => ⟨fun h k field answer hfield hanswer htype => ?_, fun h p hp htype => ?_⟩
  · refine h (field, answer) (List.mem_iff_getElem?.mpr ⟨k, ?_⟩) htype
    rw [List.getElem?_zip_eq_some]
    exact ⟨hfield, hanswer⟩
  · obtain ⟨k, hk⟩ := List.mem_iff_getElem?.mp hp
    rw [List.getElem?_zip_eq_some] at hk
    exact h k p.1 p.2 hk.1 hk.2 htype

theorem entry_of_asks {index : Nat} {field : Json} {answer : List JsString} (h : Asks index field)
    (hsingle : fieldType field = some (js "string") → answer.length ≤ 1) :
    Answers field answer (entry field answer) := by
  have hne : js "string" ≠ js "multiselect" := by decide
  refine ⟨by rw [entry, h.key]; rfl, fun htype => by rw [entry, entryValue, if_pos htype], fun htype => ?_⟩
  have hvalue : (entry field answer).2 = .str (answer.head?.getD []) := by
    rw [entry, entryValue, htype, if_neg (by simpa using hne)]
  rw [hvalue]
  match answer, hsingle htype with
  | [], _ => exact Or.inl ⟨rfl, rfl⟩
  | [text], _ => exact Or.inr ⟨text, rfl, rfl⟩
  | _ :: _ :: _, hlen => simp at hlen

theorem reaches_of_fits {fields : List Json} {answers : QuestionAnswers}
    (hasks : ∀ k field, fields[k]? = some field → Asks k field)
    (hfits : fits fields answers = true) : Reaches fields answers (answerJson fields answers) := by
  obtain ⟨hcount, hsingle⟩ := fits_iff.mp hfits
  have hentry : ∀ (k : Nat) (field : Json) (answer : List JsString), fields[k]? = some field →
    answers[k]? = some answer →
      (List.zipWith entry fields answers)[k]? = some (entry field answer) := by
    intro k field answer hfield hanswer
    rw [List.getElem?_zipWith, hfield, hanswer]
  have hkeys : (List.zipWith entry fields answers).map Prod.fst = (List.range fields.length).map questionKey := by
    refine List.ext_getElem? fun k => ?_
    by_cases hk : k < fields.length
    · have hfield := List.getElem?_eq_getElem hk
      have hanswer := List.getElem?_eq_getElem (hcount ▸ hk)
      have hkey := (hasks k _ hfield).key
      rw [List.getElem?_map, hentry k _ _ hfield hanswer, List.getElem?_map, List.getElem?_range hk]
      simp [entry, hkey]
    · rw [List.getElem?_eq_none (by simp; omega), List.getElem?_eq_none (by simpa using hk)]
  refine ⟨hcount, _, rfl, by simp [hcount], ?_, fun k field answer e hfield hanswer he => ?_⟩
  · rw [hkeys]
    exact List.nodup_range.map fun _ _ => questionKey_inj
  · rw [hentry k field answer hfield hanswer] at he
    obtain rfl := Option.some.inj he
    exact entry_of_asks (hasks k field hfield) (hsingle k field answer hfield hanswer)

/-- A form read as pending. -/
def Pending (form : Option Json) : Prop := stringOf (chained (chained form "state") "status") = some (js "pending")

/-- The body that is made of the form that was read: it is pending, has a field for each
    list, and each list stands under the key of its field. -/
theorem readForm_ok {answers : QuestionAnswers} {result body : Json} (h : readForm answers result = .ok body) :
    ∃ fields, Pending (chained (some result) "data") ∧ chained (chained (some result) "data") "fields" =
      some (.arr fields) ∧
      Reaches fields answers body := by
  obtain ⟨form, hform, h⟩ := bind_ok h
  obtain rfl := property_ok hform
  obtain ⟨state, hstate, h⟩ := bind_ok h
  obtain rfl := property_ok hstate
  obtain ⟨status, hstatus, h⟩ := bind_ok h
  obtain rfl := property_ok hstatus
  split at h
  · cases h
  rename_i hpending
  obtain ⟨found, hfound, h⟩ := bind_ok h
  split at h
  · rename_i fields hfields
    obtain ⟨l, hl, -, hasks⟩ := asks_of_form hfound
    obtain rfl : fields = l := by simpa [hfields] using hl
    split at h
    · rename_i hfits
      cases h
      exact ⟨fields, not_not.mp hpending, hfields, reaches_of_fits hasks hfits⟩
    · cases h
  · cases h

theorem property_of_chained {value v : Option Json} {name : String} (h : chained value name = v) (hv : v ≠ none) :
    property value name = .ok v := by
  cases value with
  | none => exact absurd h.symm hv
  | some value =>
    cases value with
    | obj ms => rw [← h]; rfl
    | _ => exact absurd h.symm hv

/-- A pending question, and a list that fits each of its fields, make a body. -/
theorem readForm_of_fits {answers : QuestionAnswers} {result question : Json} {fields : List Json}
    (hpending : Pending (chained (some result) "data"))
    (hquestion : questionFromForm (chained (some result) "data") = .ok (some question))
    (hfields : chained (chained (some result) "data") "fields" = some (.arr fields))
    (hfits : fits fields answers = true) :
    readForm answers result = .ok (answerJson fields answers) := by
  have hstate : chained (chained (some result) "data") "state" ≠ none := by
    intro h
    rw [Pending, h] at hpending
    cases hpending
  have hstatus : chained (chained (chained (some result) "data") "state") "status" ≠ none := by
    intro h
    rw [Pending, h] at hpending
    cases hpending
  have hform : chained (some result) "data" ≠ none := by
    intro h
    rw [h] at hfields
    cases hfields
  unfold readForm
  rw [property_of_chained rfl hform]
  dsimp only [bind, Except.bind]
  rw [property_of_chained rfl hstate]
  dsimp only [bind, Except.bind]
  rw [property_of_chained rfl hstatus]
  dsimp only [bind, Except.bind]
  rw [Pending] at hpending
  simp only [hpending, ne_eq, not_true_eq_false, if_false, hquestion, hfields, hfits, if_true]
  rfl

/-! ## Commands -/

/-- A call of one of the three. -/
inductive Command where
  | answer (requestID sessionID : JsString) (answers : QuestionAnswers)
  | decide (requestID sessionID : JsString) (decision : PermissionDecision)
  | prompt (sessionID text : JsString)

def Command.run (W : World) (directory : JsString) : Command → Called
  | .answer requestID sessionID answers => V2.answer W directory requestID sessionID answers
  | .decide requestID sessionID decision => V2.decide W directory requestID sessionID decision
  | .prompt sessionID text => V2.prompt W directory sessionID text

def Command.sessionID : Command → JsString
  | .answer _ sessionID _ | .decide _ sessionID _ | .prompt sessionID _ => sessionID

/-- The ids it is called with. -/
def Command.ids : Command → List JsString
  | .answer requestID sessionID _ | .decide requestID sessionID _ => [sessionID, requestID]
  | .prompt sessionID _ => [sessionID]

/-- What it writes to: the session, and what of it. -/
def Command.target : Command → List JsString
  | .answer requestID sessionID _ => [js "api", js "session", sessionID, js "form", requestID, js "reply"]
  | .decide requestID sessionID _ => [js "api", js "session", sessionID, js "permission", requestID, js "reply"]
  | .prompt sessionID _ => [js "api", js "session", sessionID, js "prompt"]

/-- A session lookup that came back with the session itself, in the directory. -/
structure LookedUp (directory id : JsString) (x : Exchange) : Prop where
  request : ∃ path, x.request = .get path ∧ route path = [js "api", js "session", id]
  session : ∃ result s, x.outcome.value = .ok result ∧ hostSession (chained (some result) "data") = .ok s ∧
    s.id = id ∧ s.directory = directory

/-- A form that was read as pending. -/
structure FormRead (sessionID requestID : JsString) (form : Option Json) (x : Exchange) : Prop where
  request : ∃ path, x.request = .get path ∧ route path = [js "api", js "session", sessionID, js "form", requestID]
  read : ∃ result, x.outcome.value = .ok result ∧ chained (some result) "data" = form
  pending : Pending form

/-- What it writes, after what it has read. -/
def Command.Writes (before : List Exchange) (body : Json) : Command → Prop
  | .answer requestID sessionID answers => ∃ x ∈ before, ∃ form fields, FormRead sessionID requestID form x ∧
      chained form "fields" = some (.arr fields) ∧ Reaches fields answers body
  | .decide _ _ decision => body = .obj [(js "decision", .str (js (Contracts.decisionText decision)))]
  | .prompt _ text => body = .obj [(js "text", .str text)]

/-- A command writes once at most, last of all, to its target, after it found its session;
    and it reports what became of the write. -/
structure Truthful (directory : JsString) (c : Command) (status : Option CommandStatus) (exchanges : List Exchange) :
    Prop where
  once : (exchanges.filter (·.request.isPost)).length ≤ 1
  written : ∀ e ∈ exchanges, e.request.isPost = true → ∃ before path body, exchanges = before ++ [e] ∧
    e.request = .post path body ∧ route path = c.target ∧ (∃ x ∈ before, LookedUp directory c.sessionID x) ∧
      c.Writes before body
  confirmed : status = some .confirmed → ∃ e ∈ exchanges, e.request.isPost = true ∧ e.outcome.ok = true
  applied : ∀ e ∈ exchanges, e.request.isPost = true → e.outcome.ok = true →
    status = some .confirmed ∨ status = some .resultUnknown
  lost : ∀ e ∈ exchanges, e.request.isPost = true → e.outcome = .lost → status = some .resultUnknown

theorem lookedUp_of_found {id encoded : JsString} {past : List Exchange}
    (hencoded : encodeURIComponent id = some encoded)
    (hid : id ≠ js "." ∧ id ≠ js "..") {s : HostSession}
    (h : (W past (lookup encoded)).value.bind (readSession directory id) = .ok s) :
    LookedUp directory id ⟨lookup encoded, W past (lookup encoded)⟩ := by
  obtain ⟨result, hresult, h⟩ := bind_ok h
  obtain ⟨data, hdata, h⟩ := bind_ok h
  obtain rfl := property_ok hdata
  obtain ⟨session, hsession, h⟩ := bind_ok h
  split at h
  · cases h
  · rename_i hsame
    rw [not_or, not_not, not_not] at hsame
    refine ⟨⟨_, rfl, ?_⟩, result, session, hresult, hsession, hsame⟩
    rw [sessionPath_eq]
    exact route_api (.cons hencoded .nil) (by simpa using hid)

/-- A run writes at its end, if at all. -/
theorem Truthful.of_reads {c : Command} {reads : List Exchange} (hreads : ∀ x ∈ reads, x.request.isPost = false)
    (thrown : Thrown) :
    Truthful directory c (some (commandError thrown)) reads where
  once := by
    rw [List.filter_eq_nil_iff.mpr fun x hx => by simp [hreads x hx]]
    exact Nat.zero_le 1
  written e he hpost := by
    rw [hreads e he] at hpost
    cases hpost
  confirmed h := absurd (Option.some.inj h) (commandError_ne_confirmed thrown)
  applied e he hpost := by
    rw [hreads e he] at hpost
    cases hpost
  lost e he hpost := by
    rw [hreads e he] at hpost
    cases hpost

theorem truthful_of_ran {c : Command} {encoded write : JsString} {result : Except Thrown Json}
    {reads exchanges : List Exchange}
    {status : CommandStatus} (hran : Ran W directory c.sessionID encoded write result reads status exchanges)
    (hencoded : encodeURIComponent c.sessionID = some encoded) (hid : c.sessionID ≠ js "." ∧ c.sessionID ≠ js "..")
    (hreads : ∀ x ∈ reads, x.request.isPost = false) (htarget : route (pathname write) = c.target)
    (hwrites : ∀ payload, result = .ok payload → c.Writes (exchanged W [] (lookup encoded) ++ reads) payload) :
    Truthful directory c (some status) exchanges := by
  have hlookup : ∀ x ∈ exchanged W [] (lookup encoded), x.request.isPost = false := by
    intro x hx
    rw [List.mem_singleton.mp hx]
    rfl
  have hbefore : ∀ x ∈ exchanged W [] (lookup encoded) ++ reads, x.request.isPost = false := fun x hx =>
    (List.mem_append.mp hx).elim (hlookup x) (hreads x)
  cases hran with
  | refused thrown h => exact .of_reads hlookup thrown
  | unread s h thrown hresult => exact .of_reads hbefore thrown
  | written s h payload hresult o ho =>
    have hlast : ∀ e ∈ exchanged W [] (lookup encoded) ++ reads ++ [⟨.post (pathname write) payload, o⟩],
        e.request.isPost = true → e = ⟨.post (pathname write) payload, o⟩ := by
      intro e he hpost
      rcases List.mem_append.mp he with he | he
      · rw [hbefore e he] at hpost
        cases hpost
      · exact List.mem_singleton.mp he
    refine ⟨?_, fun e he hpost => ?_, fun h => ?_, fun e he hpost hok => ?_, fun e he hpost hlost => ?_⟩
    · rw [List.filter_append, List.filter_eq_nil_iff.mpr fun x hx => by simp [hbefore x hx]]
      exact Nat.le_refl 1
    · obtain rfl := hlast e he hpost
      exact ⟨_, _, payload, rfl, rfl, htarget,
        ⟨_, List.mem_append_left _ (List.mem_singleton_self _), lookedUp_of_found hencoded hid h⟩,
        hwrites payload hresult⟩
    · exact ⟨_, List.mem_append_right _ (List.mem_singleton_self _), rfl, ok_of_settled (Option.some.inj h)⟩
    · obtain rfl := hlast e he hpost
      exact (settled_of_ok hok).imp (congrArg some) (congrArg some)
    · obtain rfl := hlast e he hpost
      change o = .lost at hlost
      rw [hlost]
      rfl

/-- Nothing is asked for where an id cannot be encoded. -/
theorem truthful_none (c : Command) : Truthful directory c none [] := ⟨Nat.zero_le 1, nofun, nofun, nofun, nofun⟩

theorem answer_run (answers : QuestionAnswers) (path : JsString) (past : List Exchange) :
    (do readForm answers (← json W path) : Api Json).run.run past =
      ((W past (.get (pathname path))).value.bind (readForm answers),
        past ++ [⟨.get (pathname path), W past (.get (pathname path))⟩]) := by
  rw [bind_run, json_run]
  cases (W past (.get (pathname path))).value with
  | error thrown => rfl
  | ok result => exact lift_run _ _

/-- The run of an answer. -/
theorem answer_ran (W : World) (directory : JsString) {id encoded : JsString} (h : encodeURIComponent id = some encoded)
    (answers : QuestionAnswers) (path write : JsString) :
    Ran W directory id encoded write
      ((W (exchanged W [] (lookup encoded)) (.get (pathname path))).value.bind (readForm answers))
      [⟨.get (pathname path), W (exchanged W [] (lookup encoded)) (.get (pathname path))⟩]
      ((command W directory id write (do readForm answers (← json W path))).run []).1
      ((command W directory id write (do readForm answers (← json W path))).run []).2 :=
  command_ran h (answer_run answers path _)

theorem form_word : js "/form/" = Percent.slash :: (js "form" ++ [Percent.slash]) := by decide

theorem permission_word : js "/permission/" = Percent.slash :: (js "permission" ++ [Percent.slash]) := by decide

theorem pathOf_word (segments : List JsString) {suffix word : JsString} (h : suffix = Percent.slash :: word) :
    Percent.pathOf segments ++ suffix = Percent.pathOf (segments ++ [word]) := by
  rw [Percent.pathOf_append, h]
  simp [Percent.pathOf]

theorem reply_word : js "/reply" = Percent.slash :: js "reply" := by decide

theorem prompt_word : js "/prompt" = Percent.slash :: js "prompt" := by decide

/-- What `answer` writes was made of the form it read. -/
theorem answer_writes {requestID sessionID e r : JsString} {answers : QuestionAnswers}
    (hs : encodeURIComponent sessionID = some e)
    (hr : encodeURIComponent requestID = some r) (hids : ∀ id ∈ [sessionID, requestID], id ≠ js "." ∧ id ≠ js "..")
    {past : List Exchange} {payload : Json} {o : Outcome} (ho : o.value.bind (readForm answers) = .ok payload) :
    (Command.answer requestID sessionID answers).Writes
      (past ++ [⟨.get (pathname (requestPath (js "/form/") e r)), o⟩]) payload := by
  obtain ⟨result, hresult, hpayload⟩ := bind_ok ho
  obtain ⟨fields, hpending, hfields, hreaches⟩ := readForm_ok hpayload
  refine ⟨_, List.mem_append_right _ (List.mem_singleton_self _), _, fields,
    ⟨⟨_, rfl, ?_⟩, ⟨result, hresult, rfl⟩, hpending⟩,
    hfields, hreaches⟩
  rw [form_word, requestPath_eq]
  refine route_api (.cons hs (.cons (encoded_words _ (by simp)) (.cons hr .nil))) ?_
  simp only [List.mem_cons, List.not_mem_nil, or_false, forall_eq_or_imp, forall_eq]
  exact ⟨hids _ (by simp), words_not_dots _ (by simp), hids _ (by simp)⟩

/-- Where an answer or a decision is written. -/
theorem route_reply {kind : String} (hkind : js kind = js "form" ∨ js kind = js "permission")
    {requestID sessionID e r : JsString}
    (hs : encodeURIComponent sessionID = some e) (hr : encodeURIComponent requestID = some r)
    (hids : ∀ id ∈ [sessionID, requestID], id ≠ js "." ∧ id ≠ js "..") :
    route (pathname (requestPath (Percent.slash :: (js kind ++ [Percent.slash])) e r ++ js "/reply")) =
      [js "api", js "session", sessionID, js kind, requestID, js "reply"] := by
  have hword : js kind ∈ [js "api", js "session", js "form", js "permission", js "reply", js "prompt"] := by
    rcases hkind with h | h <;> simp [h]
  rw [requestPath_eq, pathOf_word _ reply_word]
  refine route_api (.cons hs (.cons (encoded_words _ hword) (.cons hr (.cons (encoded_words _ (by simp)) .nil)))) ?_
  simp only [List.mem_cons, List.not_mem_nil, or_false, forall_eq_or_imp, forall_eq]
  exact ⟨hids _ (by simp), words_not_dots _ hword, hids _ (by simp), words_not_dots _ (by simp)⟩

/-- `prompt` reports what was refused as stale as an upstream error. -/
theorem Truthful.unstale {c : Command} {status : CommandStatus} {exchanges : List Exchange}
    (h : Truthful directory c (some status) exchanges) :
    Truthful directory c (some (if status = .stale then .upstreamError else status)) exchanges where
  once := h.once
  written := h.written
  confirmed hstatus := by
    refine h.confirmed (congrArg some ?_)
    split at hstatus
    · cases hstatus
    · exact Option.some.inj hstatus
  applied e he hpost hok := by
    rcases h.applied e he hpost hok with hs | hs <;> cases hs
    · exact Or.inl rfl
    · exact Or.inr rfl
  lost e he hpost hlost := by
    cases h.lost e he hpost hlost
    rfl

theorem truthful (W : World) (directory : JsString) (c : Command) (hids : ∀ id ∈ c.ids, id ≠ js "." ∧ id ≠ js "..") :
    Truthful directory c (c.run W directory).1 (c.run W directory).2 := by
  have hid : c.sessionID ≠ js "." ∧ c.sessionID ≠ js ".." := by
    cases c <;> exact hids _ (by simp [Command.ids, Command.sessionID])
  cases c with
  | answer requestID sessionID answers =>
    simp only [Command.run, answer]
    split
    · rename_i e r hs hr
      refine truthful_of_ran (answer_ran W directory hs answers _ _) hs hid ?_ ?_ fun payload =>
        answer_writes hs hr hids
      · intro x hx
        rw [List.mem_singleton.mp hx]
        rfl
      · rw [form_word]
        exact route_reply (Or.inl rfl) hs hr hids
    · exact truthful_none _
  | decide requestID sessionID decision =>
    simp only [Command.run, decide]
    split
    · rename_i e r hs hr
      refine truthful_of_ran (pure_ran W directory hs _ _) hs hid nofun ?_ fun payload hpayload =>
        (Except.ok.inj hpayload).symm
      rw [permission_word]
      exact route_reply (Or.inr rfl) hs hr hids
    · exact truthful_none _
  | prompt sessionID text =>
    simp only [Command.run, prompt]
    split
    · rename_i e hs
      have hroute : route (pathname (sessionPath e ++ js "/prompt")) = (Command.prompt sessionID text).target := by
        rw [sessionPath_eq, pathOf_word _ prompt_word]
        refine route_api (.cons hs (.cons (encoded_words _ (by simp)) .nil)) ?_
        simp only [List.mem_cons, List.not_mem_nil, or_false, forall_eq_or_imp, forall_eq]
        exact ⟨hid, words_not_dots _ (by simp)⟩
      have hran := pure_ran W directory hs (sessionPath e ++ js "/prompt") (.obj [(js "text", .str text)])
      exact (truthful_of_ran (c := .prompt sessionID text) hran hs hid nofun hroute fun payload hpayload =>
        (Except.ok.inj hpayload).symm).unstale
    · exact truthful_none _

/-! ## Answers to a listed form -/

/-- The form is a question still if its metadata and its fields are what they were. -/
theorem question_unchanged {form form' : Option Json} {question : Json}
    (h : questionFromForm form = .ok (some question))
    (hmetadata : chained form' "metadata" = chained form "metadata")
    (hfields : chained form' "fields" = chained form "fields") :
    ∃ question', questionFromForm form' = .ok (some question') := by
  obtain ⟨fields, hfound, -⟩ := asks_of_form h
  have hthere : chained form' "fields" ≠ none := by
    rw [hfields, hfound]
    nofun
  have hform : nonNullish form' = true := by
    cases form' with
    | none => exact absurd rfl hthere
    | some v =>
      cases v with
      | null => exact absurd rfl hthere
      | _ => rfl
  obtain ⟨metadata, hread, h⟩ := bind_ok h
  obtain rfl := property_ok hread
  have hread' : property form' "metadata" = .ok (chained form "metadata") := by
    rw [property, if_pos hform, hmetadata]
  have hfields' : formFields form' = formFields form := by
    rw [formFields, formFields, hfields]
  unfold questionFromForm
  rw [hread', hfields']
  dsimp only [bind, Except.bind] at h ⊢
  split at h
  · cases h
  rename_i hkind
  rw [if_neg hkind]
  cases hlist : formFields form with
  | error thrown =>
    rw [hlist] at h
    cases h
  | ok list =>
    rw [hlist] at h
    cases list with
    | none => cases h
    | some list =>
      dsimp only at h ⊢
      cases hsome : someFrom fieldRefused 0 list with
      | error thrown =>
        rw [hsome] at h
        cases h
      | ok refused =>
        rw [hsome] at h
        cases refused with
        | true => cases h
        | false => exact ⟨_, rfl⟩

/-- An answer that finds its session, and the form pending with the metadata and the fields
    it was listed with. -/
def Finds (W : World) (directory : JsString) (form : Json) (requestID sessionID : JsString) : Prop :=
  ∃ e r s result, encodeURIComponent sessionID = some e ∧ encodeURIComponent requestID = some r ∧
    (W [] (lookup e)).value.bind (readSession directory sessionID) = .ok s ∧
    (W (exchanged W [] (lookup e)) (.get (pathname (requestPath (js "/form/") e r)))).value = .ok result ∧
    Pending (chained (some result) "data") ∧
    chained (chained (some result) "data") "metadata" = chained (some form) "metadata" ∧
    chained (chained (some result) "data") "fields" = chained (some form) "fields"

/-- It is written. -/
theorem answer_written {form question : Json} {fields : List Json} {requestID sessionID : JsString}
    {answers : QuestionAnswers}
    (hquestion : questionFromForm (some form) = .ok (some question))
    (hfields : chained (some form) "fields" = some (.arr fields))
    (hfinds : Finds W directory form requestID sessionID) (hfits : fits fields answers = true) :
    ∃ before path o, (answer W directory requestID sessionID answers).2 = before ++
      [⟨.post path (answerJson fields answers), o⟩] := by
  obtain ⟨e, r, s, result, hs, hr, hsession, hresult, hpending, hmetadata, hfields'⟩ := hfinds
  obtain ⟨question', hquestion'⟩ := question_unchanged hquestion hmetadata hfields'
  have hbody : (W (exchanged W [] (lookup e)) (.get (pathname (requestPath (js "/form/") e r)))).value.bind
    (readForm answers) =
      .ok (answerJson fields answers) := by
    rw [hresult]
    exact readForm_of_fits hpending hquestion' (hfields'.trans hfields) hfits
  have hran := answer_ran W directory hs answers (requestPath (js "/form/") e r)
    (requestPath (js "/form/") e r ++ js "/reply")
  have hexchanges : (answer W directory requestID sessionID answers).2 = ((command W directory sessionID
      (requestPath (js "/form/") e r ++ js "/reply")
        (do readForm answers (← json W (requestPath (js "/form/") e r)))).run []).2 := by
    rw [answer, hs, hr]
    rfl
  rw [hexchanges]
  rw [hbody] at hran
  generalize ((command W directory sessionID _ _).run []).1 = status at hran
  generalize ((command W directory sessionID _ _).run []).2 = exchanges at hran ⊢
  cases hran with
  | refused thrown h =>
    rw [hsession] at h
    cases h
  | unread _ _ thrown h => cases h
  | written _ _ payload h o ho =>
    cases h
    exact ⟨_, _, o, rfl⟩

/-- The lists fit the fields where they fit the items that show them. -/
theorem fits_of_shown {fields : List Json} {items : List PendingQuestionItem} {answers : QuestionAnswers}
    (hshown : List.Forall₂ Shows fields items) (hcount : answers.length = items.length)
    (hsingle : ∀ (k : Nat) (item : PendingQuestionItem) (answer : List JsString), items[k]? = some item →
      answers[k]? = some answer →
      item.multiple = false → answer.length ≤ 1) :
    fits fields answers = true := by
  refine fits_iff.mpr ⟨by rw [hcount, hshown.length_eq], fun k field answer hfield hanswer htype => ?_⟩
  obtain ⟨item, hitem, hshows⟩ : ∃ item, items[k]? = some item ∧ Shows field item := by
    obtain ⟨hk, hget⟩ := List.getElem?_eq_some_iff.mp hfield
    have hk' : k < items.length := hshown.length_eq ▸ hk
    have := hshown.get hk hk'
    rw [List.get_eq_getElem, List.get_eq_getElem, hget] at this
    exact ⟨_, List.getElem?_eq_getElem hk', this⟩
  refine hsingle k item answer hitem hanswer ?_
  rw [hshows.multiple, htype]
  decide

/-- OpenCode 2 commands write once, to the right target, and report truthfully. And where a
    form is listed as a question, its items show its fields in their order; lists submitted
    in the order of the items reach the fields they were shown for, as long as the form is
    unchanged. -/
theorem v2_commands (directory : JsString) :
    (∀ (W : World) (c : Command), (∀ id ∈ c.ids, id ≠ js "." ∧ id ≠ js "..") →
      Truthful directory c (c.run W directory).1 (c.run W directory).2) ∧
    ∀ (titles : JsString → Option JsString) (source : PendingSource) (nowIso : JsString)
      (firstObserved firstObserved' : OMap JsString JsString) (result : Except Thrown Json) (permission : ListCall)
      (l : List PendingInteraction), list titles source nowIso firstObserved (questionCall result) permission =
        some (firstObserved', l) →
      ∀ i ∈ l, ∀ items, i.body = .question items →
        ∃ doc forms form fields, result = .ok doc ∧ chained (some doc) "data" = some (.arr forms) ∧ form ∈ forms ∧
          stringOf (chained (some form) "id") = some i.requestId ∧ chained (some form) "fields" = some (.arr fields) ∧
          (TypedForm form → List.Forall₂ Shows fields items ∧
            ∀ (W : World) (answers : QuestionAnswers), answers.length = items.length →
              (∀ (k : Nat) (item : PendingQuestionItem) (answer : List JsString), items[k]? = some item →
                answers[k]? = some answer → item.multiple = false → answer.length ≤ 1) →
              Finds W directory form i.requestId i.sessionId →
              ∃ before path body o, (answer W directory i.requestId i.sessionId answers).2 =
                before ++ [⟨.post path body, o⟩] ∧
                Reaches fields answers body) := by
  refine ⟨fun W c hids => truthful W directory c hids, ?_⟩
  intro titles source nowIso firstObserved firstObserved' result permission l hlist i hi items hitems
  obtain ⟨doc, forms, form, fields, hdoc, hforms, hform, hquestion, hfields, hasks, hid, -, rfl⟩ :=
    listed_form hlist hi hitems
  refine ⟨doc, forms, form, fields, hdoc, hforms, hform, hid, hfields, fun htyped => ?_⟩
  have hshown : List.Forall₂ Shows fields ((fields.map fieldQuestion).filterMap mapQuestionItem) := by
    obtain ⟨_, hfields', htypes⟩ := htyped.fields
    obtain rfl : fields = _ := by simpa [hfields] using hfields'
    refine shows_all fun field hfield => ?_
    obtain ⟨k, hk⟩ := List.mem_iff_getElem?.mp hfield
    exact shown_of_asks (htypes field hfield) (hasks k field hk)
  refine ⟨hshown, fun W answers hcount hsingle hfinds => ?_⟩
  have hfits := fits_of_shown hshown hcount hsingle
  obtain ⟨before, path, o, hwritten⟩ := answer_written hquestion hfields hfinds hfits
  exact ⟨before, path, _, o, hwritten, reaches_of_fits hasks hfits⟩

/-! ## A form of two questions -/

def string (s : String) : Json := .str (js s)

def choice (key type title question option : String) : Json :=
  .obj [(js "key", string key), (js "type", string type), (js "title", string title),
    (js "description", string question),
    (js "options", .arr [.obj [(js "value", string option), (js "label", string option)]])]

def choices : List Json :=
  [choice "q0" "string" "Choice" "Continue?" "Yes", choice "q1" "multiselect" "Many" "Which?" "A"]

def formMembers : List (JsString × Json) :=
  [(js "id", string "frm_1"), (js "sessionID", string "ses_main"),
    (js "metadata", .obj [(js "kind", string "question")]),
    (js "fields", .arr choices)]

def pendingForm : Json := .obj (formMembers ++ [(js "state", .obj [(js "status", string "pending")])])

def mainSession : Json :=
  .obj [(js "id", string "ses_main"), (js "title", string "Main"),
    (js "location", .obj [(js "directory", string "/work")]),
    (js "time", .obj [(js "updated", .num 1 3)])]

def data (value : Json) : Json := .obj [(js "data", value)]

/-- A server that holds the session and the form, and applies what is written. -/
def server : World
  | _, .get path =>
    if path = js "/api/session/ses_main" then .answered ⟨200, some (data mainSession), true⟩
    else .answered ⟨200, some (data pendingForm), true⟩
  | _, .post _ _ => .answered ⟨204, none, true⟩

def polled : Option (OMap JsString JsString × List PendingInteraction) :=
  list (fun _ => none) hub (js "now") .empty (questionCall (.ok (data (.arr [.obj formMembers]))))
    (.resolved (some (data (data (.arr [])))))

theorem typed_form : TypedForm (.obj formMembers) where
  id := ⟨_, rfl⟩
  sessionID := ⟨_, rfl⟩
  kind := Or.inr ⟨_, rfl⟩
  tool := Or.inl rfl
  fields := by
    refine ⟨choices, rfl, fun field hfield => ?_⟩
    have hchoice : ∃ key type title question option, field = choice key type title question option := by
      simp only [choices, List.mem_cons, List.not_mem_nil, or_false] at hfield
      rcases hfield with rfl | rfl
      · exact ⟨_, _, _, _, _, rfl⟩
      · exact ⟨_, _, _, _, _, rfl⟩
    obtain ⟨key, type, title, question, option, rfl⟩ := hchoice
    refine ⟨⟨_, rfl⟩, ⟨_, rfl⟩, Or.inr ⟨_, rfl⟩, Or.inr ⟨_, rfl⟩, Or.inl rfl, Or.inr ⟨_, rfl, fun o ho => ?_⟩⟩
    obtain rfl := List.mem_singleton.mp ho
    exact ⟨⟨_, rfl⟩, ⟨_, rfl⟩, Or.inl rfl⟩

/-- The two lists are written once, each to the field it was given for. -/
theorem lists_reach_fields :
    (∃ before path body o,
      (answer server (js "/work") (js "frm_1") (js "ses_main") [[js "Yes"], [js "A", js "custom"]]).2 =
      before ++ [⟨.post path body, o⟩] ∧ Reaches choices [[js "Yes"], [js "A", js "custom"]] body) ∧
    Truthful (js "/work") (.answer (js "frm_1") (js "ses_main") [[js "Yes"], [js "A", js "custom"]]) (some .confirmed)
      (answer server (js "/work") (js "frm_1") (js "ses_main") [[js "Yes"], [js "A", js "custom"]]).2 := by
  have hlisted : ∃ firstObserved i items, polled = some (firstObserved, [i]) ∧ i.body = .question items ∧
    items.length = 2 ∧
      i.requestId = js "frm_1" ∧ i.sessionId = js "ses_main" ∧ items.map (·.multiple) = [false, true] :=
    ⟨_, _, _, rfl, rfl, rfl, rfl, rfl, rfl⟩
  obtain ⟨firstObserved, i, items, hlist, hitems, hlength, hid, hsession, hmultiple⟩ := hlisted
  obtain ⟨doc, forms, form, fields, hdoc, hforms, hform, -, hfields, hreach⟩ :=
    (v2_commands (js "/work")).2 _ _ _ _ _ _ _ _ hlist i (by simp) items hitems
  cases hdoc
  cases hforms
  obtain rfl := List.mem_singleton.mp hform
  cases hfields
  rw [hid, hsession] at hreach
  have hfinds : Finds server (js "/work") (.obj formMembers) (js "frm_1") (js "ses_main") :=
    ⟨_, _, _, _, rfl, rfl, rfl, rfl, rfl, rfl, rfl⟩
  refine ⟨(hreach typed_form).2 server _ hlength.symm (fun k item answer hitem hanswer hsingle => ?_) hfinds,
    (v2_commands (js "/work")).1 server (.answer _ _ _) (by decide)⟩
  have hk := congrArg (·[k]?) hmultiple
  rw [List.getElem?_map, hitem] at hk
  match k with
  | 0 =>
    cases hanswer
    exact Nat.le_refl 1
  | 1 =>
    rw [Option.map_some, hsingle] at hk
    cases hk
  | k + 2 => cases hanswer

end NotifyHub.Plugin.V2
