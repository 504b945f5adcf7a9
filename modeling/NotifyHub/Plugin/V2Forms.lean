/-
  NotifyHub.Plugin.V2Forms — the forms of OpenCode 2 as pending questions: what
  `questionFromForm` takes for a question, and how the pending adapter lists it
  (packages/plugin/src/v2-api.ts, `questionFromForm` and the constructor of `V2Api`).
-/

import NotifyHub.Plugin.QuestionReply
import NotifyHub.Plugin.V2Api

namespace NotifyHub.Plugin.V2

open Control (PendingQuestionItem PendingInteraction InteractionBody)

/-! ## Fields that ask -/

theorem bind_ok {α β : Type} {x : Except Thrown α} {f : α → Except Thrown β} {b : β} (h : x >>= f = .ok b) :
    ∃ a, x = .ok a ∧ f a = .ok b := by
  cases x with
  | error thrown => cases h
  | ok a => exact ⟨a, rfl, h⟩

theorem property_ok {value v : Option Json} {name : String} (h : property value name = .ok v) :
    v = chained value name := by
  unfold property at h
  split at h
  · exact (Except.ok.inj h).symm
  · cases h

/-- Nothing of the list is true. -/
theorem someFrom_false {p : Nat → Json → Except Thrown Bool} {index : Nat} {items : List Json}
    (h : someFrom p index items = .ok false) :
    ∀ k item, items[k]? = some item → p (index + k) item = .ok false := by
  induction items generalizing index with
  | nil => simp
  | cons x items ih =>
    obtain ⟨b, hb, hrest⟩ := bind_ok h
    cases b with
    | true => cases hrest
    | false =>
      intro k item hk
      cases k with
      | zero =>
        obtain rfl := Option.some.inj hk
        exact hb
      | succ k =>
        have := ih hrest k item (by simpa using hk)
        rwa [Nat.add_right_comm, Nat.add_assoc] at this

/-- A field of a question: its key, its type and its options. -/
structure Asks (index : Nat) (field : Json) : Prop where
  key : stringOf (chained (some field) "key") = some (questionKey index)
  type : fieldType field = some (js "string") ∨ fieldType field = some (js "multiselect")
  options : ∃ l, chained (some field) "options" = some (.arr l)

theorem asks_of_not_refused {index : Nat} {field : Json} (h : fieldRefused index field = .ok false) :
    Asks index field := by
  obtain ⟨key, hkey, h⟩ := bind_ok h
  obtain rfl := property_ok hkey
  split at h
  · cases h
  rename_i hkey
  split at h
  · cases h
  rename_i htype
  split at h
  · cases h
  split at h
  · rename_i options hoptions
    refine ⟨Decidable.of_not_not hkey, ?_, options, hoptions⟩
    by_contra hno
    exact htype (not_or.mp hno)
  · cases h

/-- Where a question is made of a form, every field asks, in its place. -/
theorem asks_of_form {form : Option Json} {question : Json} (h : questionFromForm form = .ok (some question)) :
    ∃ fields, chained form "fields" = some (.arr fields) ∧ question = formQuestion form fields ∧
      ∀ k field, fields[k]? = some field → Asks k field := by
  obtain ⟨metadata, hmetadata, h⟩ := bind_ok h
  split at h
  · cases h
  obtain ⟨found, hfound, h⟩ := bind_ok h
  cases found with
  | none => cases h
  | some fields =>
    obtain ⟨refused, hrefused, h⟩ := bind_ok h
    cases refused with
    | true => cases h
    | false =>
      cases h
      refine ⟨fields, ?_, rfl, fun k field hk => ?_⟩
      · unfold formFields at hfound
        split at hfound
        · rename_i l hl
          split at hfound
          · cases hfound
          · cases hfound
            exact hl
        · split at hfound <;> cases hfound
        · split at hfound <;> cases hfound
        · cases hfound
      · have := someFrom_false hrefused k field hk
        rw [Nat.zero_add] at this
        exact asks_of_not_refused this

/-! ## The listing -/

/-- `result.data.map(questionFromForm).filter(Boolean)` -/
def listForms (result : Json) : Except Thrown (List Json) := do
  match ← property (some result) "data" with
  | some (.arr forms) => return (← forms.mapM fun form => questionFromForm (some form)).filterMap id
  | _ => throw .other

/-- The question list of the adapter, of what `json` came to. -/
def questionCall (result : Except Thrown Json) : ListCall :=
  match result.bind listForms with
  | .error _ => .rejected
  | .ok questions => .resolved (some (.obj [(js "data", .obj [(js "data", .arr questions)])]))

def OptionalString (v : Option Json) : Prop := v = none ∨ ∃ s, v = some (.str s)

def OptionalBool (v : Option Json) : Prop := v = none ∨ ∃ b, v = some (.bool b)

/-- An option of a `V2Form`. -/
structure TypedOption (option : Json) : Prop where
  value : ∃ s, chained (some option) "value" = some (.str s)
  label : ∃ s, chained (some option) "label" = some (.str s)
  description : OptionalString (chained (some option) "description")

/-- A field of a `V2Form`. -/
structure TypedField (field : Json) : Prop where
  key : ∃ s, chained (some field) "key" = some (.str s)
  type : ∃ s, chained (some field) "type" = some (.str s)
  title : OptionalString (chained (some field) "title")
  description : OptionalString (chained (some field) "description")
  custom : OptionalBool (chained (some field) "custom")
  options : chained (some field) "options" = none ∨
    ∃ options, chained (some field) "options" = some (.arr options) ∧ ∀ option ∈ options, TypedOption option

/-- A value of the type `V2Form`. -/
structure TypedForm (form : Json) : Prop where
  id : ∃ s, chained (some form) "id" = some (.str s)
  sessionID : ∃ s, chained (some form) "sessionID" = some (.str s)
  kind : OptionalString (chained (chained (some form) "metadata") "kind")
  tool : chained (chained (some form) "metadata") "tool" = none ∨ ∃ messageID id,
    chained (chained (chained (some form) "metadata") "tool") "messageID" = some (.str messageID) ∧
      chained (chained (chained (some form) "metadata") "tool") "id" = some (.str id)
  fields : ∃ fields, chained (some form) "fields" = some (.arr fields) ∧ ∀ field ∈ fields, TypedField field

/-- The question that is shown for a field. -/
def Shows (field : Json) (item : PendingQuestionItem) : Prop := mapQuestionItem (fieldQuestion field) = some item

theorem orElse_text {a b : Option Json} (ha : OptionalString a) (hb : ∃ s, b = some (.str s) ∧ s ≠ []) :
    ∃ s, orElse a b = some (.str s) ∧ s ≠ [] := by
  unfold orElse
  split
  · rename_i htrue
    rcases ha with rfl | ⟨s, rfl⟩
    · cases htrue
    · exact ⟨s, rfl, by simpa [truthy] using htrue⟩
  · exact hb

/-- A typed field that asks is shown. -/
theorem shown_of_asks {index : Nat} {field : Json} (htyped : TypedField field) (hasks : Asks index field) :
    (mapQuestionItem (fieldQuestion field)).isSome = true := by
  have htitle : ∃ s, titleOf field = some (.str s) ∧ s ≠ [] := orElse_text htyped.title ⟨_, rfl, by decide⟩
  obtain ⟨question, hquestion, hquestion'⟩ := orElse_text htyped.description htitle
  obtain ⟨header, hheader, hheader'⟩ := htitle
  obtain ⟨options, hoptions⟩ := hasks.options
  have hitem : fieldQuestion field = .obj
    [(js "header", .str header), (js "question", .str question), (js "options", .arr options),
      (js "multiple", .bool (fieldType field = some (js "multiselect"))),
      (js "custom", .bool (strictEq (chained (some field) "custom") (some (.bool true))))] := by
    simp only [fieldQuestion, literal, hquestion]
    simp only [hheader, hoptions, List.filterMap_cons, List.filterMap_nil, Option.map_some]
  rw [mapQuestionItem_isSome]
  exact ⟨⟨_, header, hitem, rfl, hheader'⟩, ⟨_, question, hitem, rfl, hquestion'⟩, ⟨_, options, hitem, rfl⟩⟩

theorem chained_literal (members : List (String × Option Json)) (name : String) :
    chained (some (literal members)) name = (members.find? fun m => decide (js m.1 = js name) && m.2.isSome).bind
      (·.2) := by
  change member (members.filterMap fun m => m.2.map fun v => (js m.1, v)) name = _
  induction members with
  | nil => rfl
  | cons m members ih =>
    rw [member] at ih ⊢
    obtain ⟨key, value⟩ := m
    rw [List.filterMap_cons, List.find?_cons]
    cases value with
    | none =>
      dsimp only [Option.map_none, Option.isSome_none]
      rw [Bool.and_false]
      exact ih
    | some value =>
      dsimp only [Option.map_some, Option.isSome_some]
      rw [List.find?_cons, Bool.and_true]
      cases decide (js key = js name) with
      | true => rfl
      | false => exact ih

/-- A member that is not asked for is passed over. -/
theorem chained_skip {name' name : String} (h : js name' ≠ js name) (value : Option Json)
    (members : List (String × Option Json)) :
    chained (some (literal ((name', value) :: members))) name = chained (some (literal members)) name := by
  rw [chained_literal, chained_literal, List.find?_cons, decide_eq_false h]
  rfl

theorem chained_undefined (name' name : String) (members : List (String × Option Json)) :
    chained (some (literal ((name', none) :: members))) name = chained (some (literal members)) name := rfl

theorem chained_nil (name : String) : chained (some (literal [])) name = none := rfl

theorem chained_here (name : String) (value : Json) (members : List (String × Option Json)) :
    chained (some (literal ((name, some value) :: members))) name = some value := by
  rw [chained_literal, List.find?_cons, decide_eq_true rfl]
  rfl

theorem chained_last (name : String) (value : Option Json) : chained (some (literal [(name, value)])) name = value := by
  cases value with
  | none => rfl
  | some value => exact chained_here name value []

theorem fieldQuestion_multiple (field : Json) :
    chained (some (fieldQuestion field)) "multiple" = some (.bool (fieldType field = some (js "multiselect"))) := by
  unfold fieldQuestion
  simp (disch := decide) only [chained_skip, chained_here]

/-- The item of a field is a multiple choice if the field is. -/
theorem Shows.multiple {field : Json} {item : PendingQuestionItem} (h : Shows field item) :
    item.multiple = decide (fieldType field = some (js "multiselect")) := by
  have hmultiple := fieldQuestion_multiple field
  unfold Shows mapQuestionItem at h
  simp only [Option.bind_eq_bind, Option.bind_eq_some_iff] at h
  obtain ⟨ms, hms, _, -, _, -, _, -, hitem⟩ := h
  cases hitem
  unfold fieldQuestion literal at hms hmultiple
  rw [Json.record?, Option.some.injEq] at hms
  rw [chained, hms] at hmultiple
  dsimp only
  rw [hmultiple]
  rfl

/-- The questions are those of the fields, in their order. -/
theorem shows_all {fields : List Json} (h : ∀ field ∈ fields, (mapQuestionItem (fieldQuestion field)).isSome = true) :
    List.Forall₂ Shows fields ((fields.map fieldQuestion).filterMap mapQuestionItem) := by
  induction fields with
  | nil => exact .nil
  | cons field fields ih =>
    obtain ⟨item, hitem⟩ := Option.isSome_iff_exists.mp (h field (by simp))
    rw [List.map_cons, List.filterMap_cons, hitem]
    exact .cons hitem (ih fun f hf => h f (List.mem_cons_of_mem _ hf))

theorem stamped {nowIso : JsString} {l : List PendingInteraction} {i : PendingInteraction} :
    ∀ {firstObserved : OMap JsString JsString}, i ∈ (stampEach nowIso firstObserved l).2 →
      ∃ j ∈ l, ∃ occurredAt, i = { j with occurredAt } := by
  induction l with
  | nil => nofun
  | cons j l ih =>
    intro firstObserved h
    rcases List.mem_cons.mp h with rfl | h
    · exact ⟨j, List.mem_cons_self, _, rfl⟩
    · obtain ⟨k, hk, hi⟩ := ih h
      exact ⟨k, List.mem_cons_of_mem _ hk, hi⟩

/-- The members of a question that are read. -/
theorem formQuestion_members (form : Option Json) (fields : List Json) :
    chained (some (formQuestion form fields)) "id" = chained form "id" ∧
      chained (some (formQuestion form fields)) "sessionID" = chained form "sessionID" ∧
        chained (some (formQuestion form fields)) "questions" = some (.arr (fields.map fieldQuestion)) := by
  have h1 : decide (js "id" = js "sessionID") = false := by decide
  have h2 : decide (js "sessionID" = js "id") = false := by decide
  have h3 : decide (js "questions" = js "id") = false := by decide
  have h4 : decide (js "tool" = js "id") = false := by decide
  have h5 : decide (js "questions" = js "sessionID") = false := by decide
  have h6 : decide (js "tool" = js "sessionID") = false := by decide
  have h7 : decide (js "id" = js "questions") = false := by decide
  have h8 : decide (js "sessionID" = js "questions") = false := by decide
  simp only [formQuestion, chained_literal, List.find?_cons, List.find?_nil, h1, h2, h3,
    h4, h5, h6, h7, h8, Bool.false_and,
    decide_true, Bool.true_and, Option.isSome_some]
  refine ⟨?_, ?_, rfl⟩
  · cases chained form "id" <;> rfl
  · cases chained form "sessionID" <;> rfl

theorem mem_of_mapM {α β : Type} {f : α → Except Thrown β} {l : List α} {m : List β} (h : l.mapM f = .ok m) :
    ∀ b ∈ m, ∃ a ∈ l, f a = .ok b := by
  induction l generalizing m with
  | nil =>
    cases h
    nofun
  | cons a l ih =>
    rw [List.mapM_cons] at h
    obtain ⟨b, hb, h⟩ := bind_ok h
    obtain ⟨rest, hrest, h⟩ := bind_ok h
    cases h
    intro c hc
    rcases List.mem_cons.mp hc with rfl | hc
    · exact ⟨a, List.mem_cons_self, hb⟩
    · obtain ⟨x, hx, hxc⟩ := ih hrest c hc
      exact ⟨x, List.mem_cons_of_mem _ hx, hxc⟩

/-- The question requests of a call are made of the forms of the response. -/
theorem questionCall_payload {result : Except Thrown Json} {qs : List Json}
    (h : (questionCall result).payload = some qs) :
    ∃ doc forms, result = .ok doc ∧ chained (some doc) "data" = some (.arr forms) ∧
      ∀ q ∈ qs, ∃ form ∈ forms, questionFromForm (some form) = .ok (some q) := by
  unfold questionCall at h
  split at h
  · cases h
  · rename_i questions hquestions
    obtain ⟨doc, hdoc, hlisted⟩ := bind_ok hquestions
    obtain ⟨data, hdata, hlisted⟩ := bind_ok hlisted
    obtain rfl := property_ok hdata
    split at hlisted
    · rename_i forms hforms
      obtain ⟨made, hmade, hlisted⟩ := bind_ok hlisted
      have hqs : listPayload (some (.obj [(js "data", .obj [(js "data", .arr questions)])])) = some questions := by
        have h1 : decide (js "data" = js "error") = false := by decide
        simp [listPayload, member, Json.record?, Json.arr?, nonNullish, h1]
      rw [ListCall.payload, hqs] at h
      cases h
      cases hlisted
      refine ⟨doc, forms, hdoc, hforms, fun q hq => ?_⟩
      obtain ⟨q', hq', hid⟩ := List.mem_filterMap.mp hq
      obtain rfl : q' = some q := hid
      exact mem_of_mapM hmade _ hq'
    · cases hlisted

/-- What the adapter reads of a question. -/
theorem mapQuestion_reads {titles : JsString → Option JsString} {source : PendingSource}
    {raw : Json} {i : PendingInteraction}
    (h : mapQuestion titles source raw = some i) :
    stringOf (chained (some raw) "id") = some i.requestId ∧
      stringOf (chained (some raw) "sessionID") = some i.sessionId ∧
      ∃ questions, chained (some raw) "questions" = some (.arr questions) ∧
        i.body = .question (questions.filterMap mapQuestionItem) := by
  simp only [mapQuestion, Option.bind_eq_bind, Option.bind_eq_some_iff] at h
  obtain ⟨ms, hms, id, hid, sessionID, hsession, questions, ⟨v, hv, hq⟩, hi⟩ := h
  cases raw <;> simp only [Json.record?, Option.some.injEq, reduceCtorEq] at hms
  cases v <;> simp only [Json.arr?, Option.some.injEq, reduceCtorEq] at hq
  subst hms hq
  obtain ⟨hid, -⟩ := asNonEmptyString_eq_some.mp hid
  obtain ⟨hsession, -⟩ := asNonEmptyString_eq_some.mp hsession
  split at hi
  · cases hi
  · cases hi
    refine ⟨?_, ?_, _, hv, rfl⟩
    · rw [chained, hid]
      rfl
    · rw [chained, hsession]
      rfl

/-- A question of a poll was made of a form of the response. -/
theorem listed_form {titles : JsString → Option JsString} {source : PendingSource} {nowIso : JsString}
    {firstObserved firstObserved' : OMap JsString JsString} {result : Except Thrown Json} {permission : ListCall}
    {l : List PendingInteraction}
    (h : list titles source nowIso firstObserved (questionCall result) permission = some (firstObserved', l))
    {i : PendingInteraction} (hi : i ∈ l) {items : List PendingQuestionItem} (hitems : i.body = .question items) :
    ∃ doc forms form fields, result = .ok doc ∧ chained (some doc) "data" = some (.arr forms) ∧ form ∈ forms ∧
      questionFromForm (some form) = .ok (some (formQuestion (some form) fields)) ∧
      chained (some form) "fields" = some (.arr fields) ∧ (∀ k field, fields[k]? = some field → Asks k field) ∧
      stringOf (chained (some form) "id") = some i.requestId ∧
        stringOf (chained (some form) "sessionID") = some i.sessionId ∧
      items = (fields.map fieldQuestion).filterMap mapQuestionItem := by
  rcases list_eq_some h with ⟨qs, ps, hqs, -, rfl⟩ | ⟨-, rfl⟩
  · obtain ⟨doc, forms, hdoc, hforms, hmade⟩ := questionCall_payload hqs
    obtain ⟨j, hj, occurredAt, rfl⟩ := stamped hi
    rcases List.mem_append.mp hj with hj | hj
    · obtain ⟨q, hq, hmapped⟩ := List.mem_filterMap.mp hj
      obtain ⟨form, hform, hquestion⟩ := hmade q hq
      obtain ⟨fields, hfields, rfl, hasks⟩ := asks_of_form hquestion
      obtain ⟨hid, hsession, hquestions⟩ := formQuestion_members (some form) fields
      obtain ⟨hid', hsession', questions, hquestions', hbody⟩ := mapQuestion_reads hmapped
      rw [hid] at hid'
      rw [hsession] at hsession'
      obtain rfl : fields.map fieldQuestion = questions := by simpa [hquestions] using hquestions'
      refine ⟨doc, forms, form, fields, hdoc, hforms, hform, hquestion, hfields, hasks, hid', hsession', ?_⟩
      exact (InteractionBody.question.inj (hbody.symm.trans hitems)).symm
    · obtain ⟨raw, -, hmapped⟩ := List.mem_filterMap.mp hj
      simp only [mapPermission, Option.bind_eq_bind, Option.bind_eq_some_iff] at hmapped
      obtain ⟨_, -, _, -, _, -, _, -, _, -, hmapped⟩ := hmapped
      cases hmapped
      cases hitems
  · cases hi

end NotifyHub.Plugin.V2
