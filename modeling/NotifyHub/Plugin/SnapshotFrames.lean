/-
  NotifyHub.Plugin.SnapshotFrames — does reporting pending work ever cost the connection?

  The gateway closes a connection with 4400 on a frame that fails the plugin-control
  schema. `interaction_valid` says which interactions pass it; the adapter makes every
  field land inside it but two: `strings` keeps empty strings, so a permission's
  `patterns` and `always` may hold one. `snapshot_valid_iff` says so of every poll of
  every run of the adapter.
-/

import NotifyHub.Contracts.Frames
import NotifyHub.Control.CommandBodies
import NotifyHub.Control.Tunnels
import NotifyHub.Lib.Run
import NotifyHub.Plugin.PendingAdapter

namespace NotifyHub.Plugin

open Control Contracts Schema

variable {dateTime : JsString → Bool}

/-! ## Parts of an interaction -/

theorem tool_valid (t : PendingTool) :
    toolSchema.validate dateTime (toolJson t) = true ↔ t.messageId ≠ [] ∧ t.callId ≠ [] := by
  rw [toolSchema, show toolJson t = .obj ([("messageId", nonEmptyString, .str t.messageId),
    ("callId", nonEmptyString, .str t.callId)].map fun f => (js f.1, f.2.2)) from rfl,
    validate_fields _ (by decide) _ (by simp) (by simp)]
  simp [validate_nonEmptyString]

theorem option_valid (o : PendingQuestionOption) :
    pendingQuestionOptionSchema.validate dateTime (optionJson o) = true ↔ o.label ≠ [] := by
  rw [pendingQuestionOptionSchema, show optionJson o = .obj ([("label", nonEmptyString, .str o.label),
    ("description", anyString, .str o.description)].map fun f => (js f.1, f.2.2)) from rfl,
    validate_fields _ (by decide) _ (by simp) (by simp)]
  simp [validate_nonEmptyString, validate_anyString]

structure ItemSound (q : PendingQuestionItem) : Prop where
  header : q.header ≠ []
  question : q.question ≠ []
  labels : ∀ o ∈ q.options, o.label ≠ []

theorem item_valid (q : PendingQuestionItem) :
    pendingQuestionItemSchema.validate dateTime (itemJson q) = true ↔ ItemSound q := by
  rw [pendingQuestionItemSchema, show itemJson q = .obj ([("header", nonEmptyString, .str q.header),
    ("question", nonEmptyString, .str q.question),
    ("options", array 0 none pendingQuestionOptionSchema, .arr (q.options.map optionJson)),
    ("multiple", boolean, .bool q.multiple), ("custom", boolean, .bool q.custom)].map fun f => (js f.1, f.2.2)) from
      rfl,
    validate_fields _ (by decide) _ (by simp) (by simp)]
  simp only [List.forall_mem_cons, validate_nonEmptyString, validate_array_map, option_valid, validate_boolean]
  constructor
  · intro ⟨⟨_, hh, h1⟩, ⟨_, hq, h2⟩, ⟨_, _, h3⟩, _⟩
    cases hh; cases hq
    exact ⟨h1, h2, h3⟩
  · intro h
    exact ⟨⟨_, rfl, h.header⟩, ⟨_, rfl, h.question⟩, ⟨Nat.zero_le _, rfl, h.labels⟩, trivial, trivial, nofun⟩

/-- The body's own fields pass the schema. -/
def BodySound : InteractionBody → Prop
  | .question questions => questions ≠ [] ∧ ∀ q ∈ questions, ItemSound q
  | .permission permission patterns always _ => permission ≠ [] ∧ [] ∉ patterns ∧ [] ∉ always

variable (dateTime) in
/-- The fields every interaction has pass the schema. -/
structure SourceSound (i : PendingInteraction) : Prop where
  instanceId : uuidFormat i.instanceId = true
  machine : i.machine ≠ []
  project : i.project ≠ []
  directory : i.directory ≠ []
  sessionId : i.sessionId ≠ []
  requestId : i.requestId ≠ []
  occurredAt : dateTime i.occurredAt = true
  tool : ∀ t, i.tool = some t → t.messageId ≠ [] ∧ t.callId ≠ []

/-- The fields both kinds share, with their schemas. -/
def sourceFields (i : PendingInteraction) : List (String × Schema × Json) :=
  [("instanceId", uuidString, .str i.instanceId), ("machine", nonEmptyString, .str i.machine),
    ("project", nonEmptyString, .str i.project), ("directory", nonEmptyString, .str i.directory),
    ("sessionId", nonEmptyString, .str i.sessionId), ("sessionTitle", anyString, .str i.sessionTitle),
    ("requestId", nonEmptyString, .str i.requestId), ("occurredAt", dateTimeString, .str i.occurredAt)]

def toolFields (i : PendingInteraction) : List (String × Schema × Json) :=
  (i.tool.map fun t => ("tool", toolSchema, toolJson t)).toList

theorem source_valid (i : PendingInteraction) :
    (∀ f ∈ sourceFields i ++ toolFields i, f.2.1.validate dateTime f.2.2 = true) ↔ SourceSound dateTime i := by
  have hdate : dateTimeString.validate dateTime (.str i.occurredAt) = true ↔ dateTime i.occurredAt = true := by
    simp [dateTimeString, validate, Format.holds]
  have huuid : uuidString.validate dateTime (.str i.instanceId) = true ↔ uuidFormat i.instanceId = true := by
    simp [validate_uuidString]
  have hne : ∀ s : JsString, nonEmptyString.validate dateTime (.str s) = true ↔ s ≠ [] := by
    simp [validate_nonEmptyString]
  rw [List.forall_mem_append]
  simp only [sourceFields, List.forall_mem_cons, hdate, huuid, hne, validate_anyString]
  constructor
  · rintro ⟨⟨h1, h2, h3, h4, h5, _, h7, h8, _⟩, ht⟩
    refine ⟨h1, h2, h3, h4, h5, h7, h8, fun t hi => ?_⟩
    exact (tool_valid t).mp (ht ("tool", toolSchema, toolJson t) (by simp [toolFields, hi]))
  · intro h
    refine ⟨⟨h.instanceId, h.machine, h.project, h.directory, h.sessionId, trivial, h.requestId,
      h.occurredAt, (by rintro _ ⟨⟩)⟩, ?_⟩
    intro f hf
    simp only [toolFields, Option.mem_toList, Option.map_eq_some_iff] at hf
    obtain ⟨t, ht, rfl⟩ := hf
    exact (tool_valid t).mpr (h.tool t ht)

/-! ## Interactions -/

theorem forall_fields {P : String × Schema × Json → Prop} {l l' l'' : List (String × Schema × Json)} :
    (∀ f ∈ l ++ l' ++ l'', P f) ↔ (∀ f ∈ l ++ l'', P f) ∧ ∀ f ∈ l', P f := by
  simp only [List.forall_mem_append]
  tauto

/-- The fields of an interaction: the shared ones around those of its kind. -/
def fieldsOf (i : PendingInteraction) (own : List (String × Schema × Json)) : List (String × Schema × Json) :=
  sourceFields i ++ own ++ toolFields i

theorem toolFields_mem {i : PendingInteraction} {f : String × Schema × Json} (hf : f ∈ toolFields i) :
    f.1 = "tool" ∧ f.2.1 = toolSchema := by
  simp only [toolFields, Option.mem_toList, Option.map_eq_some_iff] at hf
  obtain ⟨t, _, rfl⟩ := hf
  exact ⟨rfl, rfl⟩

/-- An interaction of either kind, under the schema of its kind. -/
theorem fields_valid (i : PendingInteraction) {own : List (String × Schema × Json)} {required : List String}
    {properties : List (String × Schema)}
    (hn : ((pendingSourceProperties ++ properties).map fun p => js p.1).Nodup)
    (hown : ∀ f ∈ own, (f.1, f.2.1) ∈ properties) (htool : ("tool", toolSchema) ∈ properties)
    (hr : ∀ name ∈ required, name ∈ own.map fun f => f.1) :
    (object (pendingSourceRequired ++ required) (pendingSourceProperties ++ properties)).validate dateTime
      (.obj ((fieldsOf i own).map fun f => (js f.1, f.2.2))) = true ↔
      SourceSound dateTime i ∧ ∀ f ∈ own, f.2.1.validate dateTime f.2.2 = true := by
  rw [validate_fields _ hn, fieldsOf, forall_fields, source_valid]
  · intro f hf
    rcases List.mem_append.mp hf with hf | hf
    · rcases List.mem_append.mp hf with hf | hf
      · refine List.mem_append_left _ ?_
        have listed : ∀ f ∈ sourceFields i, (f.1, f.2.1) ∈ pendingSourceProperties := by
          simp [sourceFields, pendingSourceProperties]
        exact listed f hf
      · exact List.mem_append_right _ (hown f hf)
    · obtain ⟨h1, h2⟩ := toolFields_mem hf
      rw [h1, h2]
      exact List.mem_append_right _ htool
  · intro name hname
    rw [fieldsOf, List.map_append, List.map_append]
    refine List.mem_append_left _ ?_
    rcases List.mem_append.mp hname with hname | hname
    · exact List.mem_append_left _ hname
    · exact List.mem_append_right _ (hr name hname)

theorem question_valid {i : PendingInteraction} {questions : List PendingQuestionItem}
    (hb : i.body = .question questions) :
    pendingQuestionInteractionSchema.validate dateTime (interactionJson i) = true ↔
      SourceSound dateTime i ∧ BodySound i.body := by
  have hfields : interactionJson i = .obj ((fieldsOf i [("kind", tag "question", text "question"),
      ("questions", array 1 none pendingQuestionItemSchema, .arr (questions.map itemJson))]).map
        fun f => (js f.1, f.2.2)) := by
    rw [interactionJson, hb]
    cases ht : i.tool <;> simp [fieldsOf, toolFields, ht, optionalField] <;> rfl
  rw [pendingQuestionInteractionSchema, hfields, fields_valid i (by decide) (by simp) (by simp) (by simp), hb]
  simp only [List.forall_mem_cons, validate_tag, validate_array_map, item_valid, BodySound]
  simp [List.length_pos_iff, Nat.succ_le_iff]

theorem permission_valid {i : PendingInteraction} {permission : JsString} {patterns always : List JsString}
    {metadata : List (JsString × Json)} (hb : i.body = .permission permission patterns always metadata) :
    pendingPermissionInteractionSchema.validate dateTime (interactionJson i) = true ↔
      SourceSound dateTime i ∧ BodySound i.body := by
  have hfields : interactionJson i = .obj ((fieldsOf i [("kind", tag "permission", text "permission"),
      ("permission", nonEmptyString, .str permission), ("patterns", array 0 none nonEmptyString, stringsJson patterns),
      ("always", array 0 none nonEmptyString, stringsJson always), ("metadata", dict any, .obj metadata)]).map
        fun f => (js f.1, f.2.2)) := by
    rw [interactionJson, hb]
    cases ht : i.tool <;> simp [fieldsOf, toolFields, ht, optionalField] <;> rfl
  have hne : ∀ s : JsString, nonEmptyString.validate dateTime (.str s) = true ↔ s ≠ [] := by
    simp [validate_nonEmptyString]
  have hnil : ∀ l : List JsString, (∀ s ∈ l, s ≠ []) ↔ [] ∉ l :=
    fun l => ⟨fun h hm => h [] hm rfl, fun h s hs he => h (he ▸ hs)⟩
  rw [pendingPermissionInteractionSchema, hfields, fields_valid i (by decide) (by simp [pendingPermissionContent])
    (by simp [pendingPermissionContent]) (by simp [pendingPermissionContentRequired]), hb]
  simp only [List.forall_mem_cons, validate_tag, stringsJson, validate_array_map, hne, hnil, BodySound]
  simp [validate]

/-- The schemas of the two kinds refuse each other's interactions. -/
theorem refused {i : PendingInteraction} {t u : String} (hm : field "kind" (text u) ∈ bodyMembers i.body)
    (hne : js u ≠ js t) {required : List String} {properties : List (String × Schema)} :
    (object required (pendingSourceProperties ++ ("kind", tag t) :: properties)).validate dateTime (interactionJson i) =
      false := by
  refine validate_object_of_member (k := js "kind") (v := text u) ?_ ?_
  · exact List.mem_append_left _ (List.mem_append_right _ hm)
  · have hskip : ∀ v, validateNamed dateTime (pendingSourceProperties ++ ("kind", tag t) :: properties) (js "kind") v =
        (tag t).validate dateTime v := fun _ => rfl
    rw [hskip, Bool.eq_false_iff, Ne, validate_tag]
    exact hne

/-- Which interactions the schema takes. -/
theorem interaction_valid (i : PendingInteraction) :
    pendingInteractionSchema.validate dateTime (interactionJson i) = true ↔
      SourceSound dateTime i ∧ BodySound i.body := by
  rw [pendingInteractionSchema]
  cases hb : i.body with
  | question questions =>
    have hother : pendingPermissionInteractionSchema.validate dateTime (interactionJson i) = false :=
      refused (u := "question") (by rw [hb]; simp [bodyMembers]) (by simp [js])
    have : (oneOf ([] ++ pendingQuestionInteractionSchema :: [pendingPermissionInteractionSchema])).validate dateTime
        (interactionJson i) = _ := validate_oneOf [] [pendingPermissionInteractionSchema]
      fun other ho => by rw [List.mem_singleton.mp ho]; exact hother
    rw [List.nil_append] at this
    rw [this, question_valid hb, hb]
  | permission permission patterns always metadata =>
    have hother : pendingQuestionInteractionSchema.validate dateTime (interactionJson i) = false :=
      refused (u := "permission") (by rw [hb]; simp [bodyMembers]) (by simp [js])
    have : (oneOf ([pendingQuestionInteractionSchema] ++ pendingPermissionInteractionSchema :: [])).validate dateTime
        (interactionJson i) = _ := validate_oneOf [pendingQuestionInteractionSchema] []
      fun other ho => by rw [List.mem_singleton.mp ho]; exact hother
    rw [List.singleton_append] at this
    rw [this, permission_valid hb, hb]

/-! ## The frame -/

/-- A schema of another type refuses a frame. -/
theorem refuses_type {ms : List (JsString × Json)} {u : String} (hm : field "type" (text u) ∈ ms) {t : String}
    (hne : js u ≠ js t) {required : List String} {properties : List (String × Schema)} :
    (object required (("type", tag t) :: properties)).validate dateTime (.obj ms) = false := by
  refine validate_object_of_member hm ?_
  rw [validateNamed_cons, if_pos rfl, Bool.eq_false_iff, Ne, validate_tag]
  exact hne

/-- The frame passes the schema of the plugin's frames when its ids and interactions do. -/
theorem snapshotResponse_valid {requestId instanceId : JsString} {l : List PendingInteraction}
    (hr : uuidFormat requestId = true) (hi : uuidFormat instanceId = true) :
    pluginControlClientMessageSchema.validate dateTime
      (.obj (clientFrame (.pendingSnapshotResponse requestId instanceId l))) = true ↔
      ∀ i ∈ l, SourceSound dateTime i ∧ BodySound i.body := by
  have hm : field "type" (text "pending_snapshot_response") ∈
      clientFrame (.pendingSnapshotResponse requestId instanceId l) := by simp [clientFrame]
  have hone : pluginControlClientMessageSchema = oneOf ([pluginRegistrationSchema] ++ pendingSnapshotResponseSchema ::
      [questionAnswerResultSchema, permissionDecideResultSchema, sessionPromptResultSchema,
        webUiHttpResponseStartSchema,
        webUiHttpResponseChunkSchema, webUiHttpResponseEndSchema, sessionCatalogResponseSchema]) := rfl
  rw [hone, validate_oneOf]
  · rw [pendingSnapshotResponseSchema, show Json.obj (clientFrame (.pendingSnapshotResponse requestId instanceId l)) =
      .obj ([("type", tag "pending_snapshot_response", text "pending_snapshot_response"),
        ("requestId", uuidString, .str requestId), ("instanceId", uuidString, .str instanceId),
        ("interactions", array 0 none pendingInteractionSchema, .arr (l.map interactionJson))].map
          fun f => (js f.1, f.2.2)) from rfl,
      validate_fields _ (by decide) _ (by simp) (by simp)]
    simp only [List.forall_mem_cons, validate_tag, validate_uuidString, validate_array_map, interaction_valid]
    simp [hr, hi]
  · simp only [List.cons_append, List.nil_append, List.forall_mem_cons]
    refine ⟨refuses_type hm ?_, refuses_type hm ?_, refuses_type hm ?_, refuses_type hm ?_, refuses_type hm ?_,
      refuses_type hm ?_, refuses_type hm ?_, refuses_type hm ?_, nofun⟩ <;> simp [js]

/-! ## What the adapter makes of a request -/

theorem asNonEmptyString_ne {v : Option Json} {s : JsString} (h : asNonEmptyString v = some s) : s ≠ [] :=
  (asNonEmptyString_eq_some.mp h).2

theorem mapTool_sound {v : Option Json} {t : PendingTool} (h : mapTool v = some t) :
    t.messageId ≠ [] ∧ t.callId ≠ [] := by
  simp only [mapTool, Option.bind_eq_bind, Option.bind_eq_some_iff] at h
  obtain ⟨ms, _, h⟩ := h
  split at h
  · cases h
  · simp only [Option.bind_eq_some_iff] at h
    obtain ⟨messageId, hm, callId, hc, h⟩ := h
    cases h
    exact ⟨asNonEmptyString_ne hm, asNonEmptyString_ne hc⟩

theorem mapQuestionItem_sound {v : Json} {q : PendingQuestionItem} (h : mapQuestionItem v = some q) : ItemSound q := by
  simp only [mapQuestionItem, Option.bind_eq_bind, Option.bind_eq_some_iff] at h
  obtain ⟨ms, _, header, hh, question, hq, options, _, h⟩ := h
  cases h
  refine ⟨asNonEmptyString_ne hh, asNonEmptyString_ne hq, fun o ho => ?_⟩
  obtain ⟨raw, _, hraw⟩ := List.mem_filterMap.mp ho
  simp only [mapOption, Option.bind_eq_bind, Option.bind_eq_some_iff] at hraw
  obtain ⟨_, _, label, hl, hraw⟩ := hraw
  cases hraw
  exact asNonEmptyString_ne hl

/-- What the adapter knows of the instance it runs in. -/
structure Identified (source : PendingSource) : Prop where
  instanceId : uuidFormat source.instanceId = true
  machine : source.machine ≠ []
  project : source.project ≠ []
  directory : source.directory ≠ []

variable {titles : JsString → Option JsString} {source : PendingSource}

/-- The interactions of a request with ids and a tool of the right shape, once stamped. -/
theorem interaction_sound (hs : Identified source) {sessionID id time : JsString} {tool : Option Json}
    {body : InteractionBody}
    (hsession : sessionID ≠ []) (hid : id ≠ []) (htime : dateTime time = true) :
    SourceSound dateTime { interaction titles source sessionID id (mapTool tool) body with occurredAt := time } :=
  ⟨hs.instanceId, hs.machine, hs.project, hs.directory, hsession, hid, htime, fun _ ht => mapTool_sound ht⟩

theorem mapQuestion_sound (hs : Identified source) {raw : Json} {i : PendingInteraction}
    (h : mapQuestion titles source raw = some i) {time : JsString} (htime : dateTime time = true) :
    SourceSound dateTime { i with occurredAt := time } ∧ BodySound i.body := by
  simp only [mapQuestion, Option.bind_eq_bind, Option.bind_eq_some_iff] at h
  obtain ⟨ms, _, id, hid, sessionID, hsession, questions, _, h⟩ := h
  split at h
  · cases h
  · rename_i hne
    cases h
    refine ⟨interaction_sound hs (asNonEmptyString_ne hsession) (asNonEmptyString_ne hid) htime, ?_, fun q hq => ?_⟩
    · intro hnil
      exact hne (by rw [hnil]; rfl)
    · obtain ⟨item, _, hitem⟩ := List.mem_filterMap.mp hq
      exact mapQuestionItem_sound hitem

/-- A permission request the adapter maps, with an empty string among what it asks for. -/
def BlankEntry (raw : Json) : Prop :=
  ∃ ms resources, raw = .obj ms ∧ asNonEmptyString (member ms "id") ≠ none ∧
    asNonEmptyString (member ms "sessionID") ≠ none ∧ asNonEmptyString (member ms "action") ≠ none ∧
    member ms "resources" = some (.arr resources) ∧
    (.str [] ∈ resources ∨ ∃ save, member ms "save" = some (.arr save) ∧ .str [] ∈ save)

theorem nil_mem_strings {v : Option Json} : [] ∈ strings v ↔ ∃ l, v = some (.arr l) ∧ .str [] ∈ l := by
  have read : ∀ x : Json, x.str? = some [] ↔ x = .str [] := by
    intro x
    cases x <;> simp [Json.str?]
  cases v with
  | none => simp [strings]
  | some v =>
    cases v with
    | arr l => simp [strings, Json.arr?, List.mem_filterMap, read]
    | _ => simp [strings, Json.arr?]

theorem mapPermission_sound (hs : Identified source) {raw : Json} {i : PendingInteraction}
    (h : mapPermission titles source raw = some i) {time : JsString} (htime : dateTime time = true) :
    SourceSound dateTime { i with occurredAt := time } ∧ (BodySound i.body ↔ ¬ BlankEntry raw) := by
  simp only [mapPermission, Option.bind_eq_bind, Option.bind_eq_some_iff] at h
  obtain ⟨ms, hms, id, hid, sessionID, hsession, permission, hpermission, resources, ⟨v, hv, hres⟩, h⟩ := h
  cases h
  refine ⟨interaction_sound hs (asNonEmptyString_ne hsession) (asNonEmptyString_ne hid) htime, ?_⟩
  have hraw : raw = .obj ms := record_eq_some hms
  have hresources : member ms "resources" = some (.arr resources) := by
    cases v with
    | arr l => cases hres; exact hv
    | _ => cases hres
  change (permission ≠ [] ∧ [] ∉ strings (some (.arr resources)) ∧ [] ∉ strings (member ms "save")) ↔ _
  rw [nil_mem_strings, nil_mem_strings]
  constructor
  · rintro ⟨_, hpat, halways⟩ ⟨ms', resources', he, _, _, _, hres', hblank⟩
    cases hraw.symm.trans he
    cases hresources.symm.trans hres'
    rcases hblank with hb | hb
    · exact hpat ⟨resources, rfl, hb⟩
    · exact halways hb
  · intro hn
    refine ⟨asNonEmptyString_ne hpermission, fun hblank => ?_, fun hb => ?_⟩
    · obtain ⟨l, hl, hb⟩ := hblank
      cases hl
      exact hn ⟨ms, resources, hraw, by simp [hid], by simp [hsession], by simp [hpermission], hresources, Or.inl hb⟩
    · exact hn ⟨ms, resources, hraw, by simp [hid], by simp [hsession], by simp [hpermission], hresources, Or.inr hb⟩

/-- A blank entry is one the adapter maps. -/
theorem BlankEntry.mapped {raw : Json} (h : BlankEntry raw) (titles : JsString → Option JsString)
    (source : PendingSource) :
    ∃ i, mapPermission titles source raw = some i := by
  obtain ⟨ms, resources, rfl, hid, hsession, haction, hres, _⟩ := h
  obtain ⟨id, hid⟩ := Option.ne_none_iff_exists'.mp hid
  obtain ⟨sessionID, hsession⟩ := Option.ne_none_iff_exists'.mp hsession
  obtain ⟨action, haction⟩ := Option.ne_none_iff_exists'.mp haction
  simp [mapPermission, Json.record?, hid, hsession, haction, hres, Json.arr?]

/-! ## Stamps -/

theorem stampEach_mem {nowIso : JsString} {j : PendingInteraction} {l : List PendingInteraction} :
    ∀ {seen : OMap JsString JsString}, j ∈ (stampEach nowIso seen l).2 →
      ∃ i ∈ l, ∃ time, j = { i with occurredAt := time } ∧ (time = nowIso ∨ ∃ k, seen.get k = some time) := by
  induction l with
  | nil => exact nofun
  | cons i l ih =>
    intro seen hj
    rw [stampEach] at hj
    rcases List.mem_cons.mp hj with rfl | hj
    · refine ⟨i, by simp, _, rfl, ?_⟩
      cases hg : seen.get (stampKey i) with
      | none => exact Or.inl rfl
      | some v => exact Or.inr ⟨_, hg⟩
    · obtain ⟨i', hi', time, he, htime⟩ := ih hj
      refine ⟨i', by simp [hi'], time, he, ?_⟩
      rcases htime with htime | ⟨k, hk⟩
      · exact Or.inl htime
      · split at hk
        · exact Or.inr ⟨k, hk⟩
        · rename_i hnew
          rw [OMap.get_set] at hk
          split at hk
          · cases hk
            rw [Option.not_isSome_iff_eq_none.mp hnew]
            exact Or.inl rfl
          · exact Or.inr ⟨k, hk⟩

theorem mem_stampEach (nowIso : JsString) {i : PendingInteraction} {l : List PendingInteraction} (hi : i ∈ l) :
    ∀ seen : OMap JsString JsString, ∃ time, { i with occurredAt := time } ∈ (stampEach nowIso seen l).2 := by
  induction l with
  | nil => cases hi
  | cons i' l ih =>
    intro seen
    rw [stampEach]
    rcases List.mem_cons.mp hi with rfl | hi
    · exact ⟨_, List.mem_cons_self⟩
    · exact (ih hi _).imp fun time h => List.mem_cons_of_mem _ h

theorem stampEach_seen {nowIso : JsString} {l : List PendingInteraction} :
    ∀ {seen : OMap JsString JsString} {k v : JsString}, (stampEach nowIso seen l).1.get k = some v →
      v = nowIso ∨ ∃ k', seen.get k' = some v := by
  induction l with
  | nil => exact fun h => Or.inr ⟨_, h⟩
  | cons i l ih =>
    intro seen k v h
    rw [stampEach] at h
    rcases ih h with h | ⟨k', h⟩
    · exact Or.inl h
    · split at h
      · exact Or.inr ⟨k', h⟩
      · rename_i hnew
        rw [OMap.get_set] at h
        split at h
        · cases h
          rw [Option.not_isSome_iff_eq_none.mp hnew]
          exact Or.inl rfl
        · exact Or.inr ⟨k', h⟩

/-! ## Polls -/

/-- One `PendingAdapter.list`, with what it reads when its two calls have settled. -/
structure Poll where
  titleForSession : JsString → Option JsString
  nowIso : JsString
  question : ListCall
  permission : ListCall

def Poll.list (source : PendingSource) (seen : OMap JsString JsString) (p : Poll) :
    Option (OMap JsString JsString × List PendingInteraction) :=
  Plugin.list p.titleForSession source p.nowIso seen p.question p.permission

/-- The times the adapter keeps after a poll. -/
def Poll.seen (source : PendingSource) (seen : OMap JsString JsString) (p : Poll) : OMap JsString JsString :=
  ((p.list source seen).map (·.1)).getD seen

/-- Every kept time is one the clock has shown. -/
theorem seen_valid {polls : List Poll} (h : ∀ p ∈ polls, dateTime p.nowIso = true) {k v : JsString}
    (hv : (runFrom (Poll.seen source) .empty polls).get k = some v) : dateTime v = true := by
  have kept : ∀ (polls : List Poll) (seen : OMap JsString JsString), (∀ p ∈ polls, dateTime p.nowIso = true) →
      (∀ k v, seen.get k = some v → dateTime v = true) →
      ∀ k v, (runFrom (Poll.seen source) seen polls).get k = some v → dateTime v = true := by
    intro polls
    induction polls with
    | nil => exact fun _ _ hseen => hseen
    | cons p polls ih =>
      intro seen hp hseen
      rw [runFrom_cons]
      refine ih _ (fun q hq => hp q (by simp [hq])) fun k v hv => ?_
      unfold Poll.seen at hv
      cases hl : p.list source seen with
      | none => rw [hl] at hv; exact hseen k v hv
      | some r =>
        rw [hl] at hv
        simp only [Option.map_some, Option.getD_some] at hv
        unfold Poll.list Plugin.list at hl
        split at hl
        · cases hl; exact hseen k v hv
        · cases hl; exact hseen k v hv
        · split at hl
          · cases hl
            simp only [stampOccurredAt, OMap.get_filter, Option.filter_eq_some_iff] at hv
            rcases stampEach_seen hv.1 with rfl | ⟨k', hk'⟩
            · exact hp p (by simp)
            · exact hseen k' v hk'
          · cases hl; exact hseen k v hv
        · cases hl
  exact kept polls .empty h (by rintro _ _ ⟨⟩) k v hv

/-- A message of a plugin as it arrives at the registry: `none` when it does not validate. -/
def arriving (dateTime : JsString → Bool) (m : ClientMessage) : Option ClientMessage :=
  if pluginControlClientMessageSchema.validate dateTime (.obj (clientFrame m)) then some m else none

/-- The registry answers the message with close 4400. -/
def ClosesInvalid (D : Deps) (s : Registry) (c : ConnId) (m : Option ClientMessage) : Prop :=
  ∃ reason, .closed c CONTROL_CLOSE_INVALID_FRAME reason ∈ (receive D s c m).trace.drop s.trace.length

theorem closesInvalid_none {D : Deps} {s : Registry} {c : ConnId} (ha : (s.conns c).added = true) :
    ClosesInvalid D s c none := by
  refine ⟨"invalid control frame", ?_⟩
  unfold receive
  rw [if_neg (by rw [ha]; decide)]
  obtain ⟨k, hk, -⟩ := (still_disconnect (D := D) (s.setConn c { s.conns c with alive := true }) c).trace
  dsimp only
  change _ ∈ ((disconnect D (s.setConn c { s.conns c with alive := true }) c).trace ++ [_]).drop _
  rw [hk]
  change _ ∈ ((s.trace ++ k) ++ [_]).drop _
  rw [List.append_assoc, List.drop_left]
  exact List.mem_append_right _ (List.mem_singleton.mpr rfl)

theorem onRecord_trace (s : Registry) (c : ConnId) (f : InstanceRecord → InstanceRecord) :
    (onRecord s c f).trace = s.trace := by
  unfold onRecord; split <;> rfl

theorem not_closesInvalid_snapshot (D : Deps) (s : Registry) (c : ConnId) (requestId instanceId : JsString)
    (l : List PendingInteraction) : ¬ ClosesInvalid D s c (some (.pendingSnapshotResponse requestId instanceId l)) := by
  have htrace : (receive D s c (some (.pendingSnapshotResponse requestId instanceId l))).trace = s.trace := by
    unfold receive
    split
    · rfl
    · dsimp only
      unfold handleSnapshotResponse
      split
      · rfl
      · split
        · rfl
        · exact onRecord_trace _ c _
  rintro ⟨reason, h⟩
  rw [htrace, List.drop_length] at h
  cases h

/-- The interactions of a poll pass their schema exactly if no blank entry was read. -/
theorem poll_sound_iff (hs : Identified source) {polls : List Poll} {poll : Poll}
    (hclock : ∀ p ∈ poll :: polls, dateTime p.nowIso = true) {seen : OMap JsString JsString}
    {l : List PendingInteraction}
    (h : poll.list source (runFrom (Poll.seen source) .empty polls) = some (seen, l)) :
    (∀ i ∈ l, SourceSound dateTime i ∧ BodySound i.body) ↔
      ∀ qs ps, poll.question.payload = some qs → poll.permission.payload = some ps → ∀ raw ∈ ps, ¬ BlankEntry raw := by
  have hnow : dateTime poll.nowIso = true := hclock poll (by simp)
  have hseen : ∀ k v, (runFrom (Poll.seen source) .empty polls).get k = some v → dateTime v = true :=
    fun k v => seen_valid fun p hp => hclock p (by simp [hp])
  rcases list_eq_some h with ⟨qs, ps, hq, hp, rfl⟩ | ⟨hfail, rfl⟩
  · constructor
    · intro hall qs' ps' hq' hp' raw hraw hblank
      cases hq.symm.trans hq'
      cases hp.symm.trans hp'
      obtain ⟨i, hi⟩ := hblank.mapped poll.titleForSession source
      have hmem : i ∈ interactions poll.titleForSession source qs ps :=
        List.mem_append_right _ (List.mem_filterMap.mpr ⟨raw, hraw, hi⟩)
      obtain ⟨time, hstamped⟩ := mem_stampEach poll.nowIso hmem (runFrom (Poll.seen source) .empty polls)
      exact (mapPermission_sound hs hi hnow).2.mp (hall _ hstamped).2 hblank
    · intro hnone j hj
      obtain ⟨i, hi, time, rfl, htime⟩ := stampEach_mem hj
      have hvalid : dateTime time = true := by
        rcases htime with rfl | ⟨k, hk⟩
        · exact hnow
        · exact hseen k time hk
      rcases List.mem_append.mp hi with hi | hi
      · obtain ⟨raw, _, hmap⟩ := List.mem_filterMap.mp hi
        exact mapQuestion_sound hs hmap hvalid
      · obtain ⟨raw, hraw, hmap⟩ := List.mem_filterMap.mp hi
        obtain ⟨hsource, hbody⟩ := mapPermission_sound hs hmap hvalid
        exact ⟨hsource, hbody.mpr (hnone qs ps hq hp raw hraw)⟩
  · refine ⟨fun _ qs ps hq hp => ?_, fun _ => nofun⟩
    have unread : ∀ call : ListCall, call.failed = true → call.payload = none := by
      intro call hc
      cases call with
      | waiting => rfl
      | rejected => rfl
      | resolved response => exact Option.isNone_iff_eq_none.mp hc
    rcases hfail with hf | hf
    · rw [unread _ hf] at hq; cases hq
    · rw [unread _ hf] at hp; cases hp

theorem closesInvalid_arriving {D : Deps} {s : Registry} {c : ConnId} (ha : (s.conns c).added = true)
    {requestId instanceId : JsString} {l : List PendingInteraction} :
    ClosesInvalid D s c (arriving dateTime (.pendingSnapshotResponse requestId instanceId l)) ↔
      ¬ pluginControlClientMessageSchema.validate dateTime
        (.obj (clientFrame (.pendingSnapshotResponse requestId instanceId l))) = true := by
  unfold arriving
  split
  · rename_i hv
    exact ⟨fun h => absurd h (not_closesInvalid_snapshot D s c requestId instanceId l), fun h => absurd hv h⟩
  · rename_i hv
    exact ⟨fun _ => hv, fun _ => closesInvalid_none ha⟩

/-- The snapshot response of any poll passes the gateway's schema exactly if the permission
    list it was read from, when both lists could be read, holds no blank entry; and then
    alone the gateway does not close the connection on it. -/
theorem snapshot_valid_iff (hs : Identified source) {requestId : JsString} (hr : uuidFormat requestId = true)
    (polls : List Poll) (poll : Poll) (hclock : ∀ p ∈ poll :: polls, dateTime p.nowIso = true)
    {seen : OMap JsString JsString} {l : List PendingInteraction}
    (h : poll.list source (runFrom (Poll.seen source) .empty polls) = some (seen, l)) :
    (pluginControlClientMessageSchema.validate dateTime
        (.obj (clientFrame (.pendingSnapshotResponse requestId source.instanceId l))) = true ↔
      ∀ qs ps, poll.question.payload = some qs → poll.permission.payload = some ps → ∀ raw ∈ ps, ¬ BlankEntry raw) ∧
    ∀ D s c, (s.conns c).added = true →
      (ClosesInvalid D s c (arriving dateTime (.pendingSnapshotResponse requestId source.instanceId l)) ↔
        ∃ qs ps, poll.question.payload = some qs ∧ poll.permission.payload = some ps ∧ ∃ raw ∈ ps, BlankEntry raw) := by
  have hvalid : pluginControlClientMessageSchema.validate dateTime
        (.obj (clientFrame (.pendingSnapshotResponse requestId source.instanceId l))) = true ↔
      ∀ qs ps, poll.question.payload = some qs → poll.permission.payload = some ps → ∀ raw ∈ ps, ¬ BlankEntry raw :=
    (snapshotResponse_valid hr hs.instanceId).trans (poll_sound_iff hs hclock h)
  refine ⟨hvalid, fun D s c ha => ?_⟩
  rw [closesInvalid_arriving ha, hvalid]
  simp only [not_forall, not_not, exists_prop]

/-! ## A blank pattern -/

/-- A permission request for one resource. -/
def permissionFor (resource : JsString) : Json :=
  .obj [(js "id", text "per"), (js "sessionID", text "ses"), (js "action", text "edit"),
    (js "resources", .arr [.str resource])]

/-- An SDK answer that lists the requests. -/
def listed (requests : List Json) : ListCall :=
  .resolved (some (.obj [(js "data", .obj [(js "data", .arr requests)])]))

def sampleSource : PendingSource :=
  ⟨js "00000001-0000-4000-8000-000000000000", js "desk", js "hub", js "/hub"⟩

def noon : JsString := js "2026-01-01T12:00:00.000Z"

def pollFor (resource : JsString) : Poll := ⟨fun _ => none, noon, listed [], listed [permissionFor resource]⟩

theorem sampleSource_identified : Identified sampleSource :=
  ⟨by decide +kernel, by decide, by decide, by decide⟩

/-- A request for a named resource is reported, after an earlier poll. -/
theorem edit_reported : ∃ seen l, (pollFor (js "src")).list sampleSource
      (runFrom (Poll.seen sampleSource) .empty [pollFor (js "lib")]) = some (seen, l) ∧
    pluginControlClientMessageSchema.validate (· == noon)
      (.obj (clientFrame (.pendingSnapshotResponse sampleSource.instanceId sampleSource.instanceId l))) = true := by
  have hclock : ∀ p ∈ [pollFor (js "src"), pollFor (js "lib")], (p.nowIso == noon) = true := by
    simp [pollFor]
  refine ⟨_, _, rfl, (snapshot_valid_iff sampleSource_identified (by decide +kernel) [pollFor (js "lib")]
    (pollFor (js "src")) hclock rfl).1.mpr ?_⟩
  intro qs ps _ hp raw hraw ⟨ms, resources, hms, _, _, _, hres, hblank⟩
  cases hp
  cases List.mem_singleton.mp hraw
  cases hms
  cases hres
  rcases hblank with hb | ⟨save, hsave, _⟩
  · simp [js] at hb
  · cases hsave

/-- One empty resource, and the gateway refuses the frame. -/
theorem blank_pattern_refused : ∃ seen l, (pollFor []).list sampleSource .empty = some (seen, l) ∧
    pluginControlClientMessageSchema.validate (· == noon)
      (.obj (clientFrame (.pendingSnapshotResponse sampleSource.instanceId sampleSource.instanceId l))) = false :=
  ⟨_, _, rfl, by decide +kernel⟩

end NotifyHub.Plugin
